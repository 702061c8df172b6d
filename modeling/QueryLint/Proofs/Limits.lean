import Mathlib.Data.List.TakeWhile
import QueryLint.Limits
import QueryLint.Proofs.Failing

/-!
# Within limits

A name has bytes that are no UTF-8 if one of its characters stands for such a byte, and there is room for
a call unless all room is used up.
-/
namespace QueryLint

namespace Limits

theorem strayBytes?_eq_none_iff {limits : Limits} {offset : Nat} {name : String} :
    limits.strayBytes? offset name = none ↔ ∀ c ∈ name.toList, limits.strayByte? c = none := by
  have hall : (name.toList.map limits.strayByte?).dropWhile Option.isNone = [] ↔
      ∀ c ∈ name.toList, limits.strayByte? c = none := by
    simp [List.dropWhile_eq_nil_iff]
  rw [← hall, strayBytes?]
  cases hrest : (name.toList.map limits.strayByte?).dropWhile Option.isNone with
  | nil => simp
  | cons mark rest =>
    have hmark : mark.isNone = false := by
      have hhead := List.head?_dropWhile_not Option.isNone (name.toList.map limits.strayByte?)
      rw [hrest] at hhead
      simpa using hhead
    cases mark with
    | none => cases hmark
    | some b => simp

theorem strayBytes?_unlimited (offset : Nat) (name : String) :
    unlimited.strayBytes? offset name = none :=
  strayBytes?_eq_none_iff.mpr fun _ _ => rfl

end Limits

/-- A call fails if there is no room left for it. -/
theorem failsIff_enter (room : Option Nat) :
    FailsIff (enter room) (room = some 0) ⟨⟩ (room.map (· - 1)) := by
  match room with
  | none => exact ⟨nofun, fun _ => rfl⟩
  | some 0 => exact ⟨fun _ => rfl, fun h => absurd rfl h⟩
  | some (n + 1) => exact ⟨nofun, fun _ => rfl⟩

end QueryLint
