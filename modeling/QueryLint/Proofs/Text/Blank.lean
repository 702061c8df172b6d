import Mathlib.Data.List.DropRight
import Mathlib.Data.List.Infix
import QueryLint.Text.Blank
import QueryLint.Text.Lines

/-!
# Texts without blanks at their ends

Trimming takes characters away from both ends of a text, in whichever order, and only blank ones. So what
is not blank stays, and a part of a text is still a part when both are trimmed.
-/
namespace QueryLint.Text

section Ends

variable {α : Type*} {p : α → Bool}

theorem rdropWhile_cons (x : α) (xs : List α) :
    (x :: xs).rdropWhile p =
      if xs.rdropWhile p = [] then (if p x then [] else [x]) else x :: xs.rdropWhile p := by
  rw [List.rdropWhile, List.reverse_cons, List.dropWhile_append, List.rdropWhile]
  by_cases h : xs.reverse.dropWhile p = []
  · cases hx : p x <;> simp [h, hx]
  · simp [h]

/-- The two ends of a list can be dropped in either order. -/
theorem rdropWhile_dropWhile (xs : List α) :
    (xs.dropWhile p).rdropWhile p = (xs.rdropWhile p).dropWhile p := by
  induction xs with
  | nil => rfl
  | cons x xs ih =>
    rw [List.dropWhile_cons]
    by_cases hx : p x = true
    · rw [if_pos hx, ih, rdropWhile_cons, if_pos hx]
      split_ifs with hnil
      · rw [hnil]
      · rw [List.dropWhile_cons, if_pos hx]
    · rw [if_neg hx, rdropWhile_cons, if_neg hx]
      split_ifs
      · rw [List.dropWhile_cons, if_neg hx]
      · rw [List.dropWhile_cons, if_neg hx]

/-- What is left behind the dropped front is kept. -/
theorem head?_dropWhile (xs : List α) : ∀ x ∈ (xs.dropWhile p).head?, p x = false := by
  intro x hx
  have h := List.head?_dropWhile_not p xs
  rwa [Option.mem_def.mp hx] at h

theorem getLast?_rdropWhile (xs : List α) : ∀ x ∈ (xs.rdropWhile p).getLast?, p x = false := by
  rw [List.rdropWhile, List.getLast?_reverse]
  exact head?_dropWhile _

/-- Dropping the end of a text drops no less than the end of its front. -/
theorem rdropWhile_append_prefix (xs ys : List α) : xs.rdropWhile p <+: (xs ++ ys).rdropWhile p := by
  rw [List.rdropWhile, List.rdropWhile, List.reverse_append, List.dropWhile_append]
  split_ifs
  · exact List.prefix_rfl
  · rw [List.reverse_append, List.reverse_reverse]
    exact (List.rdropWhile_prefix p xs).trans (List.prefix_append _ _)

/-- What begins with something that is kept stays when a list is dropped from the front. -/
theorem exists_dropWhile_append {xs ys : List α} (h : ∀ y ∈ ys.head?, p y = false) :
    ∃ front, (xs ++ ys).dropWhile p = front ++ ys := by
  have hys : ys.dropWhile p = ys := by
    cases ys with
    | nil => rfl
    | cons y ys => exact List.dropWhile_cons_of_neg (by simp [h y rfl])
  rw [List.dropWhile_append, hys]
  split_ifs
  · exact ⟨[], rfl⟩
  · exact ⟨_, rfl⟩

theorem exists_rdropWhile_append {xs ys : List α} (h : ∀ y ∈ ys.getLast?, p y = false) :
    ∃ back, (ys ++ xs).rdropWhile p = ys ++ back := by
  obtain ⟨front, hfront⟩ := @exists_dropWhile_append _ p xs.reverse ys.reverse
    (by rwa [List.head?_reverse])
  refine ⟨front.reverse, ?_⟩
  rw [List.rdropWhile, List.reverse_append, hfront, List.reverse_append, List.reverse_reverse]

end Ends

/-! ### Trimming -/

section Trim

variable {cs ds : List Char}

theorem trimChars_eq (cs : List Char) : trimChars cs = (cs.rdropWhile isBlank).dropWhile isBlank :=
  rdropWhile_dropWhile cs

/-- What is left of a text begins and ends with a character that is not blank. -/
theorem not_isBlank_trimChars (cs : List Char) :
    (∀ c ∈ (trimChars cs).head?, isBlank c = false) ∧
      ∀ c ∈ (trimChars cs).getLast?, isBlank c = false := by
  constructor
  · rw [trimChars_eq]
    exact head?_dropWhile _
  · exact getLast?_rdropWhile _

/-- Only blanks are taken away from a text. -/
theorem exists_trimChars (cs : List Char) : ∃ front back,
    cs = front ++ trimChars cs ++ back ∧ (∀ c ∈ front, isBlank c) ∧ ∀ c ∈ back, isBlank c := by
  refine ⟨cs.takeWhile isBlank, (cs.dropWhile isBlank).rtakeWhile isBlank, ?_,
    fun c => List.mem_takeWhile_imp, fun c => List.mem_rtakeWhile_imp⟩
  have htail : trimChars cs ++ (cs.dropWhile isBlank).rtakeWhile isBlank = cs.dropWhile isBlank :=
    List.rdropWhile_append_rtakeWhile
  rw [List.append_assoc, htail, List.takeWhile_append_dropWhile]

/-- A part of a text is still one when both are trimmed. -/
theorem trimChars_infix (h : cs <:+: ds) : trimChars cs <:+: trimChars ds := by
  by_cases hnil : trimChars cs = []
  · rw [hnil]
    exact List.nil_infix
  · obtain ⟨front, back, hcs, _, _⟩ := exists_trimChars cs
    have hpart : trimChars cs <:+: ds := List.IsInfix.trans ⟨front, back, hcs.symm⟩ h
    obtain ⟨before, after, hds⟩ := hpart
    obtain ⟨hhead, hlast⟩ := not_isBlank_trimChars cs
    obtain ⟨first, rest, hcons⟩ := List.exists_cons_of_ne_nil hnil
    obtain ⟨before', hbefore⟩ := @exists_dropWhile_append _ isBlank before (trimChars cs ++ after)
      (by rw [hcons] at hhead ⊢; exact hhead)
    obtain ⟨after', hafter⟩ := @exists_rdropWhile_append _ isBlank after (before' ++ trimChars cs)
      (by rwa [List.getLast?_append_of_ne_nil _ hnil])
    have htrim : trimChars ds = ((before ++ (trimChars cs ++ after)).dropWhile isBlank).rdropWhile
        isBlank := by
      rw [← List.append_assoc, hds]
      rfl
    exact ⟨before', after', by rw [htrim, hbefore, ← List.append_assoc, hafter]⟩

theorem countP_trimChars (cs : List Char) :
    (trimChars cs).countP (!isBlank ·) = cs.countP (!isBlank ·) := by
  have hnone : ∀ {ds : List Char}, (∀ c ∈ ds, isBlank c) → ds.countP (!isBlank ·) = 0 := by
    intro ds h
    exact List.countP_eq_zero.mpr fun c hc => by simp [h c hc]
  obtain ⟨front, back, hcs, hfront, hback⟩ := exists_trimChars cs
  have hcount := congrArg (List.countP (!isBlank ·)) hcs
  rw [List.countP_append, List.countP_append, hnone hfront, hnone hback] at hcount
  omega

end Trim

end QueryLint.Text
