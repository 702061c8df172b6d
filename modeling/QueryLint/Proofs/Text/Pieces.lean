import Mathlib.Data.List.Basic
import QueryLint.Text.Pieces

/-!
# Pieces and separators

Taking a text apart at its separators and joining pieces by a separator undo each other, as long as no piece
holds the separator.
-/
namespace QueryLint.Text

theorem pieceChars_of_notMem {separator : Char} {cs : List Char} (h : separator ∉ cs) :
    pieceChars separator cs = [cs] := by
  induction cs with
  | nil => rfl
  | cons c cs ih =>
    rw [List.mem_cons, not_or] at h
    rw [pieceChars, ih h.2]
    exact if_neg fun heq => h.1 heq.symm

theorem pieceChars_append_cons {separator : Char} {cs : List Char} (h : separator ∉ cs)
    (rest : List Char) :
    pieceChars separator (cs ++ separator :: rest) = cs :: pieceChars separator rest := by
  induction cs with
  | nil =>
    rw [List.nil_append, pieceChars]
    cases hpieces : pieceChars separator rest with
    | nil => exact absurd hpieces (pieceChars_ne_nil separator rest)
    | cons piece more => exact if_pos rfl
  | cons c cs ih =>
    rw [List.mem_cons, not_or] at h
    rw [List.cons_append, pieceChars, ih h.2]
    exact if_neg fun heq => h.1 heq.symm

theorem pieceChars_intercalate {separator : Char} {parts : List (List Char)} (hne : parts ≠ [])
    (h : ∀ part ∈ parts, separator ∉ part) :
    pieceChars separator ([separator].intercalate parts) = parts := by
  induction parts with
  | nil => exact absurd rfl hne
  | cons part parts ih =>
    rw [List.forall_mem_cons] at h
    cases parts with
    | nil => rw [List.intercalate_singleton, pieceChars_of_notMem h.1]
    | cons next more =>
      rw [List.intercalate_cons_cons, List.append_assoc, List.singleton_append,
        pieceChars_append_cons h.1, ih (List.cons_ne_nil _ _) h.2]

theorem intercalate_cons_eq (separator : Char) (part : List Char) (parts : List (List Char)) :
    [separator].intercalate (part :: parts) = part ++ (parts.map (separator :: ·)).flatten := by
  induction parts generalizing part with
  | nil => rw [List.intercalate_singleton, List.map_nil, List.flatten_nil, List.append_nil]
  | cons next more ih =>
    rw [List.intercalate_cons_cons, ih, List.map_cons, List.flatten_cons, List.append_assoc,
      List.singleton_append, List.cons_append]

theorem intercalate_pieceChars (separator : Char) (cs : List Char) :
    [separator].intercalate (pieceChars separator cs) = cs := by
  induction cs with
  | nil => rfl
  | cons c cs ih =>
    rw [pieceChars]
    cases hpieces : pieceChars separator cs with
    | nil => exact absurd hpieces (pieceChars_ne_nil separator cs)
    | cons piece more =>
      rw [hpieces, intercalate_cons_eq] at ih
      by_cases hc : c = separator
      · simp only [hc, if_true, intercalate_cons_eq, List.map_cons, List.flatten_cons,
          List.nil_append, List.cons_append, ih]
      · simp only [hc, if_false, intercalate_cons_eq, List.cons_append, ih]

theorem exists_mem_pieceChars {separator c : Char} {cs : List Char} (hne : c ≠ separator)
    (hc : c ∈ cs) : ∃ piece ∈ pieceChars separator cs, c ∈ piece := by
  obtain ⟨first, more, hpieces⟩ := List.exists_cons_of_ne_nil (pieceChars_ne_nil separator cs)
  rw [← intercalate_pieceChars separator cs, hpieces, intercalate_cons_eq, List.mem_append,
    List.mem_flatten] at hc
  rw [hpieces]
  rcases hc with hfirst | ⟨_, hmore, hmem⟩
  · exact ⟨first, List.mem_cons_self, hfirst⟩
  · obtain ⟨piece, hpiece, rfl⟩ := List.mem_map.mp hmore
    exact ⟨piece, List.mem_cons_of_mem _ hpiece, (List.mem_cons.mp hmem).resolve_left hne⟩

end QueryLint.Text
