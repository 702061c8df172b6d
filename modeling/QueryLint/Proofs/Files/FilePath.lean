import QueryLint.Files.FilePath
import QueryLint.Proofs.Text.Pieces

/-!
# Paths and their texts

The names of files and folders hold no slashes, so that a path of such names is read back from its text,
and paths with the same text are the same.
-/
namespace QueryLint.Files

open QueryLint.Text

/-- A name that a file or folder may have. -/
structure IsProperName (name : String) : Prop where
  nonEmpty : name ≠ ""
  notHere : name ≠ "."
  notAbove : name ≠ ".."
  noSlash : '/' ∉ name.toList

instance (name : String) : Decidable (IsProperName name) :=
  decidable_of_iff (name ≠ "" ∧ name ≠ "." ∧ name ≠ ".." ∧ '/' ∉ name.toList)
    ⟨fun ⟨h₁, h₂, h₃, h₄⟩ => ⟨h₁, h₂, h₃, h₄⟩, fun ⟨h₁, h₂, h₃, h₄⟩ => ⟨h₁, h₂, h₃, h₄⟩⟩

namespace FilePath

/-- A path that leads somewhere through files and folders only. -/
structure IsProper (p : FilePath) : Prop where
  parts_ne_nil : p.parts ≠ []
  names : ∀ name ∈ p.parts, IsProperName name

variable {p q : FilePath}

theorem toList_intercalate_slash (parts : List String) :
    ("/".intercalate parts).toList = ['/'].intercalate (parts.map String.toList) := by
  rw [String.toList_intercalate]
  rfl

/-- Behind its anchor, the text of a proper path starts with no slash. -/
theorem IsProper.exists_cons (h : p.IsProper) :
    ∃ c rest, ("/".intercalate p.parts).toList = c :: rest ∧ c ≠ '/' := by
  obtain ⟨name, more, hparts⟩ := List.exists_cons_of_ne_nil h.parts_ne_nil
  have hname := h.names name (hparts ▸ List.mem_cons_self)
  have hchars : name.toList ≠ [] := by simpa using hname.nonEmpty
  obtain ⟨c, cs, hcs⟩ := List.exists_cons_of_ne_nil hchars
  have hc : c ≠ '/' := by
    rintro rfl
    exact hname.noSlash (hcs ▸ List.mem_cons_self)
  rw [toList_intercalate_slash, hparts, List.map_cons, hcs]
  cases more with
  | nil => exact ⟨c, cs, by rw [List.map_nil, List.intercalate_singleton], hc⟩
  | cons next more =>
    exact ⟨c, _, by rw [List.map_cons, List.intercalate_cons_cons, List.cons_append,
      List.cons_append], hc⟩

theorem IsProper.toString_eq (h : p.IsProper) :
    p.toString = p.anchor.text ++ "/".intercalate p.parts := by
  obtain ⟨c, rest, hcs, _⟩ := h.exists_cons
  rw [toString]
  split
  · next hempty =>
    have hchars := congrArg String.toList hempty
    rw [String.toList_append, hcs] at hchars
    simp at hchars
  · rfl

/-- Behind any number of slashes, the components of a proper path are read back from their text: the
slashes give empty pieces, which are left out. -/
theorem IsProper.pieces_slashes (h : p.IsProper) (k : Nat) :
    ((pieceChars '/' (List.replicate k '/' ++ ("/".intercalate p.parts).toList)).map
      String.ofList).filter (fun part => part != "" && part != ".") = p.parts := by
  have hpieces : pieceChars '/' ("/".intercalate p.parts).toList = p.parts.map String.toList := by
    rw [toList_intercalate_slash]
    refine pieceChars_intercalate (by simpa using h.parts_ne_nil) fun part hpart => ?_
    obtain ⟨name, hname, rfl⟩ := List.mem_map.mp hpart
    exact (h.names name hname).noSlash
  have hfilter : p.parts.filter (fun part => part != "" && part != ".") = p.parts := by
    refine List.filter_eq_self.mpr fun name hname => ?_
    simp [(h.names name hname).nonEmpty, (h.names name hname).notHere]
  have hparts : (p.parts.map String.toList).map String.ofList = p.parts := by
    simp
  have hslash : ∀ cs, pieceChars '/' ('/' :: cs) = [] :: pieceChars '/' cs := fun cs =>
    pieceChars_append_cons (List.not_mem_nil : '/' ∉ []) cs
  induction k with
  | zero => rw [List.replicate_zero, List.nil_append, hpieces, hparts, hfilter]
  | succ k ih =>
    rw [List.replicate_succ, List.cons_append, hslash, List.map_cons, List.filter_cons_of_neg, ih]
    decide

theorem IsProper.takeWhile_slashes (h : p.IsProper) (k : Nat) :
    (List.replicate k '/' ++ ("/".intercalate p.parts).toList).takeWhile (· == '/') =
      List.replicate k '/' := by
  obtain ⟨c, rest, hcs, hc⟩ := h.exists_cons
  rw [hcs, List.takeWhile_append_of_pos fun d hd => by simp [List.eq_of_mem_replicate hd],
    List.takeWhile_cons, if_neg (by simpa using hc), List.append_nil]

/-- A proper path is read back from its text. -/
theorem IsProper.ofString_toString (h : p.IsProper) : ofString p.toString = p := by
  rw [h.toString_eq, ofString, pieces, String.toList_append]
  cases hp : p.anchor with
  | current =>
    have htext : Anchor.current.text.toList = List.replicate 0 '/' := rfl
    rw [htext, h.takeWhile_slashes, h.pieces_slashes]
    exact congrArg (FilePath.mk · p.parts) hp.symm
  | root =>
    have htext : Anchor.root.text.toList = List.replicate 1 '/' := rfl
    rw [htext, h.takeWhile_slashes, h.pieces_slashes]
    exact congrArg (FilePath.mk · p.parts) hp.symm
  | doubledRoot =>
    have htext : Anchor.doubledRoot.text.toList = List.replicate 2 '/' := rfl
    rw [htext, h.takeWhile_slashes, h.pieces_slashes]
    exact congrArg (FilePath.mk · p.parts) hp.symm

/-- Proper paths with the same text are the same. -/
theorem IsProper.eq_of_toString_eq (hp : p.IsProper) (hq : q.IsProper)
    (h : p.toString = q.toString) : p = q := by
  rw [← hp.ofString_toString, h, hq.ofString_toString]

end FilePath

end QueryLint.Files
