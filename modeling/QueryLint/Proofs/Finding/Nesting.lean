import Mathlib.Data.List.Nodup
import QueryLint.Proofs.Finding.Greedy

/-!
# Edits inside each other

Where any two ranges are apart or one inside the other, and no two begin together, the greedy choice
of edits has a plain answer: those without another inside are applied. An edit around others is
reached when one of them is applied already, and that one begins before its end.
-/
namespace QueryLint.Finding.Edit

open QueryLint.Text

/-- Whether the range of `b` lies strictly inside that of `a`. -/
def encloses (a b : Edit) : Bool :=
  a.start ≤ b.start && b.stop ≤ a.stop && (a.start < b.start || b.stop < a.stop)

/-- The edits without another inside. -/
def innermost (edits : List Edit) : List Edit := edits.filter fun e => !edits.any e.encloses

/-- Edits with ranges that begin one after the other, each apart from those before it or inside. -/
def Nested (edits : List Edit) : Prop :=
  (∀ e ∈ edits, 0 ≤ e.start ∧ e.start < e.stop) ∧
    edits.Pairwise fun a b => a.start < b.start ∧ (b.stop ≤ a.stop ∨ a.stop ≤ b.start)

variable {e : Edit} {edits : List Edit}

theorem encloses_iff {a b : Edit} :
    a.encloses b ↔ a.start ≤ b.start ∧ b.stop ≤ a.stop ∧ (a.start < b.start ∨ b.stop < a.stop) := by
  simp [encloses, and_assoc]

theorem Nested.tail (h : Nested (e :: edits)) : Nested edits :=
  ⟨fun d hd => h.1 d (List.mem_cons_of_mem _ hd), (List.pairwise_cons.mp h.2).2⟩

/-- An edit that begins before all others is inside none of them. -/
theorem innermost_cons (h : Nested (e :: edits)) :
    innermost (e :: edits) =
      (if edits.any e.encloses then [] else [e]) ++ innermost edits := by
  have hself : e.encloses e = false := by simp [encloses]
  have hrest : ∀ d ∈ edits, d.encloses e = false := by
    intro d hd
    have hlt := ((List.pairwise_cons.mp h.2).1 d hd).1
    rw [Bool.eq_false_iff, Ne, encloses_iff]
    omega
  have hfilter : edits.filter (fun d => !(e :: edits).any d.encloses) = innermost edits := by
    refine List.filter_congr fun d hd => ?_
    rw [List.any_cons, hrest d hd, Bool.false_or]
  rw [innermost, List.filter_cons, hfilter, List.any_cons, hself, Bool.false_or]
  cases edits.any e.encloses <;> rfl

/-- In the range of each edit lies one without another inside. -/
theorem exists_innermost (h : Nested edits) (he : e ∈ edits) :
    ∃ d ∈ innermost edits, e.start ≤ d.start ∧ d.stop ≤ e.stop := by
  induction edits generalizing e with
  | nil => cases he
  | cons a edits ih =>
    rw [innermost_cons h]
    have hrest : ∀ b ∈ edits, ∃ d ∈ innermost edits, b.start ≤ d.start ∧ d.stop ≤ b.stop :=
      fun b hb => ih h.tail hb
    rcases List.mem_cons.mp he with rfl | he
    · by_cases hany : edits.any e.encloses
      · obtain ⟨b, hb, hin⟩ := List.any_eq_true.mp hany
        obtain ⟨d, hd, hstart, hstop⟩ := hrest b hb
        have hbounds := encloses_iff.mp hin
        exact ⟨d, List.mem_append_right _ hd, by omega, by omega⟩
      · refine ⟨e, List.mem_append_left _ ?_, Int.le_refl _, Int.le_refl _⟩
        rw [if_neg hany]
        exact List.mem_singleton_self e
    · obtain ⟨d, hd, hbounds⟩ := hrest e he
      exact ⟨d, List.mem_append_right _ hd, hbounds⟩

theorem limit_le_of_mem {length : Nat} {chosen : List Edit} (h : Nested chosen) (he : e ∈ chosen) :
    limit length chosen ≤ e.start := by
  cases chosen with
  | nil => cases he
  | cons c cs =>
    rcases List.mem_cons.mp he with rfl | he
    · exact Int.le_refl _
    · have hlt := ((List.pairwise_cons.mp h.2).1 e he).1
      simp only [limit]
      omega

theorem nested_innermost (h : Nested edits) : Nested (innermost edits) :=
  ⟨fun e he => h.1 e (List.mem_filter.mp he).1, h.2.sublist List.filter_sublist⟩

/-- From the last edit to the first, those without another inside are chosen. -/
theorem foldr_select {length : Nat} (h : Nested edits) (hlength : ∀ e ∈ edits, e.stop ≤ length) :
    edits.foldr (fun e chosen => select length chosen e) [] = innermost edits := by
  induction edits with
  | nil => rfl
  | cons e edits ih =>
    rw [List.foldr_cons, ih h.tail fun d hd => hlength d (List.mem_cons_of_mem _ hd),
      innermost_cons h, select]
    obtain ⟨hfirst, hpairs⟩ := List.pairwise_cons.mp h.2
    by_cases hany : edits.any e.encloses
    · obtain ⟨b, hb, hin⟩ := List.any_eq_true.mp hany
      obtain ⟨d, hd, hstart, hstop⟩ := exists_innermost h.tail hb
      have hbounds := encloses_iff.mp hin
      have hlimit := @limit_le_of_mem d length _ (nested_innermost h.tail) hd
      have hpos := (h.tail.1 d (List.mem_filter.mp hd).1).2
      rw [if_pos hany, if_neg (by omega), List.nil_append]
    · have hapart : ∀ d ∈ edits, e.stop ≤ d.start := by
        intro d hd
        obtain ⟨hlt, hin | hout⟩ := hfirst d hd
        · exact absurd (List.any_eq_true.mpr ⟨d, hd, encloses_iff.mpr ⟨Int.le_of_lt hlt, hin, .inl hlt⟩⟩)
            hany
        · exact hout
      have hlimit : e.stop ≤ limit length (innermost edits) := by
        cases hinner : innermost edits with
        | nil => exact hlength e List.mem_cons_self
        | cons d ds =>
          have hd : d ∈ innermost edits := hinner ▸ List.mem_cons_self
          exact hapart d (List.mem_filter.mp hd).1
      rw [if_neg hany, if_pos hlimit]
      rfl

/-- Sorted for application, nested edits come from the last to the first. -/
theorem mergeSort_precedes_eq (h : Nested edits) {shuffled : List Edit}
    (hperm : shuffled.Perm edits) : shuffled.mergeSort precedes = edits.reverse := by
  have hreverse : edits.reverse.Pairwise fun a b => precedes a b := by
    rw [List.pairwise_reverse]
    refine h.2.imp fun {a b} hab => ?_
    simp only [precedes, Bool.or_eq_true, decide_eq_true_eq]
    exact .inl hab.1
  have hsort : (shuffled.mergeSort precedes).Perm edits :=
    (List.mergeSort_perm shuffled precedes).trans hperm
  apply eq_of_perm_of_precedes (hsort.trans (List.reverse_perm edits).symm)
    (pairwise_mergeSort_precedes shuffled) hreverse
  intro a ha b hb hab
  -- edits that begin together are the same
  have hstart : a.start = b.start := congrArg Prod.fst (toLex.injective hab)
  have hnodup : (edits.map (·.start)).Nodup :=
    List.pairwise_map.mpr (h.2.imp fun hab => Int.ne_of_lt hab.1)
  exact List.inj_on_of_nodup_map hnodup (hsort.subset ha) (hsort.subset hb) hstart

/-- Of nested edits, in whatever order, those without another inside are applied. -/
theorem selection_eq_innermost {length : Nat} (h : Nested edits)
    (hlength : ∀ e ∈ edits, e.stop ≤ length) {shuffled : List Edit} (hperm : shuffled.Perm edits) :
    selection length shuffled = innermost edits := by
  rw [selection, mergeSort_precedes_eq h hperm, List.foldl_reverse, foldr_select h hlength]

end QueryLint.Finding.Edit
