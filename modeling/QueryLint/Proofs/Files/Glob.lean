import Mathlib.Data.List.Infix
import QueryLint.Files.Glob

/-!
# Where patterns lead

Whatever a pattern stands for lies below the root that it is seen from, by names alone: each of its parts
goes on from the paths of the parts before it.
-/
namespace QueryLint.Files

namespace FilePath

/-- A path goes on from another one. -/
def GoesOn (here p : FilePath) : Prop := ∃ more, p = { here with parts := here.parts ++ more }

variable {here p q : FilePath}

theorem GoesOn.refl (p : FilePath) : p.GoesOn p := ⟨[], by rw [List.append_nil]⟩

theorem GoesOn.trans (h : here.GoesOn p) (h' : p.GoesOn q) : here.GoesOn q := by
  obtain ⟨more, rfl⟩ := h
  obtain ⟨more', rfl⟩ := h'
  exact ⟨more ++ more', by rw [List.append_assoc]⟩

theorem goesOn_child (here : FilePath) (name : String) : here.GoesOn (here.child name) := ⟨[name], rfl⟩

theorem GoesOn.exists_below? (h : here.GoesOn p) : ∃ parts, p.below? here = some parts := by
  obtain ⟨more, rfl⟩ := h
  exact ⟨_, if_pos ⟨rfl, List.isPrefixOf_iff_prefix.mpr (List.prefix_append _ _)⟩⟩

end FilePath

namespace Glob

variable {disk : Disk} {here root p : FilePath}

theorem goesOn_of_mem_foldersBelow {depth : Nat} {names : List String}
    (h : p ∈ foldersBelow disk depth names here) : here.GoesOn p := by
  induction depth generalizing names here with
  | zero => exact List.mem_singleton.mp h ▸ .refl _
  | succ depth ih =>
    rcases List.mem_cons.mp h with rfl | h
    · exact .refl _
    · obtain ⟨name, _, h⟩ := List.mem_flatMap.mp h
      split at h
      · exact (here.goesOn_child name).trans (ih h)
      · cases h

theorem goesOn_of_mem_allFolders (h : p ∈ allFolders disk here) : here.GoesOn p := by
  unfold allFolders at h
  split at h
  · exact goesOn_of_mem_foldersBelow h
  · exact List.mem_singleton.mp h ▸ .refl _

theorem goesOn_of_mem_expand {foldersOnly : Bool} {parts : List GlobPart}
    (h : p ∈ expand disk foldersOnly here parts) : here.GoesOn p := by
  induction parts generalizing here with
  | nil => exact List.mem_singleton.mp h ▸ .refl _
  | cons part more ih =>
    cases part with
    | folders =>
      obtain ⟨folder, hfolder, h⟩ := List.mem_flatMap.mp h
      exact (goesOn_of_mem_allFolders hfolder).trans (ih h)
    | parent => exact (here.goesOn_child "..").trans (ih h)
    | name s =>
      simp only [expand, List.mem_ite_nil_right] at h
      exact (here.goesOn_child s).trans (ih h.2)
    | wildcard s =>
      obtain ⟨name, _, h⟩ := List.mem_flatMap.mp h
      exact (here.goesOn_child name).trans (ih h)

/-- The paths that a pattern stands for are seen from its root. -/
theorem exists_below?_of_mem_paths {glob : Glob} (h : p ∈ glob.paths disk root) :
    ∃ parts, p.below? root = some parts := by
  unfold paths at h
  split at h
  · exact (goesOn_of_mem_expand h).exists_below?
  · cases h

end Glob

end QueryLint.Files
