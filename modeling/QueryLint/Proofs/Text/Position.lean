import Mathlib.Data.Prod.Lex
import Mathlib.Order.Interval.Set.Defs
import Mathlib.Order.Monotone.Basic
import QueryLint.Text.Position

/-!
# Positions tell offsets

Up to the end of a text, a later offset has a later position: either a line feed lies in between, or
both are in the same row and the column grows. So a position belongs to one offset of the text at most.

The byte of a line feed is part of no other character, so the row of an offset is the number of line feeds
among the characters before it.
-/
namespace QueryLint.Text

attribute [ext] Position

/-- Positions are ordered by the row, then by the column. -/
def Position.key (p : Position) : ℕ ×ₗ ℕ := toLex (p.row, p.column)

/-- The length of some bytes up to the last line feed. -/
def rowStart (bytes : Bytes) : Nat := (bytes.reverse.dropWhile (· != lineFeed)).length

theorem rowStart_le (bytes : Bytes) : rowStart bytes ≤ bytes.length := by
  have h := (List.dropWhile_sublist (· != lineFeed) (l := bytes.reverse)).length_le
  rwa [List.length_reverse] at h

theorem rowStart_append {front back : Bytes} (h : lineFeed ∉ back) :
    rowStart (front ++ back) = rowStart front := by
  have hall : ∀ b ∈ back.reverse, (b != lineFeed) = true := by
    intro b hb
    rw [bne_iff_ne]
    rintro rfl
    exact h (List.mem_reverse.mp hb)
  rw [rowStart, rowStart, List.reverse_append, List.dropWhile_append_of_pos hall]

theorem strictMonoOn_position (bytes : Bytes) :
    StrictMonoOn (fun offset => (position bytes offset).key) (Set.Iic bytes.length) := by
  intro o ho o' ho' hlt
  rw [Set.mem_Iic] at ho ho'
  obtain ⟨back, hback⟩ : ∃ back, bytes.take o' = bytes.take o ++ back :=
    ⟨(bytes.drop o).take (o' - o), by rw [← List.take_add]; congr 1; omega⟩
  have hfront : rowStart (bytes.take o) ≤ o := by
    have h := rowStart_le (bytes.take o)
    rwa [List.length_take_of_le ho] at h
  simp only [Position.key, Prod.Lex.toLex_lt_toLex, position, hback, List.count_append]
  -- a line feed in between leads to a later row, and without one the row starts at the same offset
  by_cases hfeed : lineFeed ∈ back
  · have hpos := List.count_pos_iff.mpr hfeed
    exact .inl (by omega)
  · have hsame : rowStart (bytes.take o ++ back) = rowStart (bytes.take o) := rowStart_append hfeed
    rw [rowStart] at hfront
    rw [rowStart, rowStart] at hsame
    rw [List.count_eq_zero_of_not_mem hfeed, hsame]
    exact .inr ⟨rfl, by omega⟩

theorem strictMonoOn_positionOf (text : String) :
    StrictMonoOn (fun offset => (positionOf text offset).key) (Set.Iic (byteLength text)) := by
  simp only [positionOf_eq, ← length_utf8]
  exact strictMonoOn_position (utf8 text)

/-- An offset of a text is told by its position. -/
theorem positionOf_eq_iff {text : String} {o o' : Nat} (ho : o ≤ byteLength text)
    (ho' : o' ≤ byteLength text) : positionOf text o = positionOf text o' ↔ o = o' :=
  ⟨fun h => (strictMonoOn_positionOf text).injOn ho ho' (congrArg Position.key h),
    fun h => congrArg (positionOf text) h⟩

/-! ### Rows count characters -/

theorem utf8_eq_flatMap (s : String) : utf8 s = s.toList.flatMap String.utf8EncodeChar := by
  rw [← String.ofList_toList (s := s), utf8, String.toByteArray_ofList, String.toList_ofList]
  simp [List.utf8Encode]

theorem lineFeed_ne_ofNat {n : Nat} (h : 128 ≤ n) (h' : n < 256) : lineFeed ≠ UInt8.ofNat n := by
  intro heq
  have hnat := congrArg UInt8.toNat heq
  rw [UInt8.toNat_ofNat_of_lt' h'] at hnat
  have hfeed : lineFeed.toNat = 10 := rfl
  omega

theorem lineFeed_notMem_utf8EncodeChar {c : Char} (h : c ≠ '\n') :
    lineFeed ∉ String.utf8EncodeChar c := by
  have hcode : c.val.toNat ≠ 10 := fun heq => h (Char.ext (UInt32.toNat_inj.mp heq))
  unfold String.utf8EncodeChar
  simp only
  split_ifs with hone
  · intro hmem
    have hnat := congrArg UInt8.toNat (List.mem_singleton.mp hmem)
    have hlt : c.val.toNat < 256 := by omega
    rw [UInt8.toNat_ofNat_of_lt' hlt] at hnat
    exact hcode hnat.symm
  all_goals
    simp only [List.mem_cons, List.not_mem_nil, or_false, not_or]
  · exact ⟨lineFeed_ne_ofNat (by omega) (by omega), lineFeed_ne_ofNat (by omega) (by omega)⟩
  · exact ⟨lineFeed_ne_ofNat (by omega) (by omega), lineFeed_ne_ofNat (by omega) (by omega),
      lineFeed_ne_ofNat (by omega) (by omega)⟩
  · exact ⟨lineFeed_ne_ofNat (by omega) (by omega), lineFeed_ne_ofNat (by omega) (by omega),
      lineFeed_ne_ofNat (by omega) (by omega), lineFeed_ne_ofNat (by omega) (by omega)⟩

theorem count_lineFeed_utf8 (s : String) : (utf8 s).count lineFeed = s.toList.count '\n' := by
  rw [utf8_eq_flatMap]
  induction s.toList with
  | nil => rfl
  | cons c cs ih =>
    rw [List.flatMap_cons, List.count_append, ih]
    by_cases hc : c = '\n'
    · have hone : (String.utf8EncodeChar '\n').count lineFeed = 1 := by decide
      rw [hc, hone, List.count_cons_self, Nat.add_comm]
    · rw [List.count_eq_zero_of_not_mem (lineFeed_notMem_utf8EncodeChar hc), List.count_cons_of_ne hc,
        Nat.zero_add]

/-- The row of an offset is the number of line feeds before it. -/
theorem row_positionOf (front back : String) :
    (positionOf (front ++ back) (byteLength front)).row = front.toList.count '\n' := by
  rw [positionOf_eq, position, utf8_append, List.take_left' (length_utf8 front), count_lineFeed_utf8]

end QueryLint.Text
