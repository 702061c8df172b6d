import Mathlib.Data.Prod.Lex
import Mathlib.Data.String.Basic
import QueryLint.Lint.Basic
import QueryLint.Proofs.Text.Order

/-!
# The order of findings

Findings are sorted by a key: the line, the column and the rule. The sort is stable, so what it
gives is determined by the findings under each key, in the order in which they came.
-/
namespace QueryLint.Lint

open QueryLint.Text

section Stable

variable {α β : Type*} [LinearOrder β] (key : α → β)

theorem key_trans (a b c : α) (hab : decide (key a ≤ key b)) (hbc : decide (key b ≤ key c)) :
    decide (key a ≤ key c) :=
  decide_eq_true ((of_decide_eq_true hab).trans (of_decide_eq_true hbc))

theorem key_total (a b : α) : decide (key a ≤ key b) || decide (key b ≤ key a) := by
  simpa using le_total (key a) (key b)

theorem pairwise_mergeSort_key (l : List α) :
    (l.mergeSort fun a b => key a ≤ key b).Pairwise fun a b => key a ≤ key b := by
  have h := List.pairwise_mergeSort (key_trans key) (key_total key) l
  exact h.imp fun hab => of_decide_eq_true hab

/-- Sorting keeps the items under a key in their order. -/
theorem filter_mergeSort_key (l : List α) (k : β) :
    (l.mergeSort fun a b => key a ≤ key b).filter (key · = k) = l.filter (key · = k) := by
  have htied : (l.filter (key · = k)).Pairwise fun a b => decide (key a ≤ key b) = true := by
    refine List.pairwise_of_forall_mem_list fun a ha b hb => ?_
    have hka : key a = k := of_decide_eq_true (List.mem_filter.mp ha).2
    have hkb : key b = k := of_decide_eq_true (List.mem_filter.mp hb).2
    rw [decide_eq_true_eq, hka, hkb]
  have hsub := List.sublist_mergeSort (key_trans key) (key_total key) htied List.filter_sublist
  have hfilter := hsub.filter (key · = k)
  rw [List.filter_filter] at hfilter
  simp only [Bool.and_self] at hfilter
  refine (hfilter.eq_of_length ?_).symm
  exact ((List.mergeSort_perm l _).filter _).length_eq.symm

theorem eq_of_filter_key_eq {l₁ l₂ : List α} (h₁ : l₁.Pairwise fun a b => key a ≤ key b)
    (h₂ : l₂.Pairwise fun a b => key a ≤ key b)
    (h : ∀ k, l₁.filter (key · = k) = l₂.filter (key · = k)) : l₁ = l₂ := by
  induction l₁ generalizing l₂ with
  | nil =>
    cases l₂ with
    | nil => rfl
    | cons b l₂ => simpa using h (key b)
  | cons a l₁ ih =>
    cases l₂ with
    | nil => simpa using h (key a)
    | cons b l₂ =>
      -- each of the two heads is in the other list, so their keys agree
      have hle : key a ≤ key b := by
        have hb : b ∈ (a :: l₁).filter (key · = key b) := by
          rw [h (key b)]
          simp
        rcases List.mem_cons.mp (List.mem_filter.mp hb).1 with rfl | hb
        · exact le_refl _
        · exact (List.pairwise_cons.mp h₁).1 b hb
      have hge : key b ≤ key a := by
        have ha : a ∈ (b :: l₂).filter (key · = key a) := by
          rw [← h (key a)]
          simp
        rcases List.mem_cons.mp (List.mem_filter.mp ha).1 with rfl | ha
        · exact le_refl _
        · exact (List.pairwise_cons.mp h₂).1 a ha
      have hkey : key b = key a := le_antisymm hge hle
      have hhead := h (key a)
      simp only [List.filter_cons, hkey, decide_true, if_true] at hhead
      obtain ⟨rfl, _⟩ := List.cons.inj hhead
      congr 1
      refine ih (List.pairwise_cons.mp h₁).2 (List.pairwise_cons.mp h₂).2 fun k => ?_
      have hk := h k
      by_cases hak : key a = k
      · simpa [List.filter_cons, hak] using hk
      · simpa [List.filter_cons, hak] using hk

/-- Lists with the same items in the same order under each key are sorted alike. -/
theorem mergeSort_eq_of_filter_key_eq {l₁ l₂ : List α}
    (h : ∀ k, l₁.filter (key · = k) = l₂.filter (key · = k)) :
    (l₁.mergeSort fun a b => key a ≤ key b) = l₂.mergeSort fun a b => key a ≤ key b := by
  refine eq_of_filter_key_eq key (pairwise_mergeSort_key key l₁) (pairwise_mergeSort_key key l₂) ?_
  intro k
  rw [filter_mergeSort_key, filter_mergeSort_key, h]

end Stable

/-- What findings are sorted by: the line, then the column, then the rule. -/
def sortKey (f : Finding) : ℤ ×ₗ ℤ ×ₗ String :=
  toLex (f.location.lineStart, toLex (f.location.columnStart, f.ruleId))

theorem precedes_eq (a b : Finding) : precedes a b = decide (sortKey a ≤ sortKey b) := by
  rw [Bool.eq_iff_iff]
  simp [precedes, sortKey, Prod.Lex.toLex_le_toLex, textLe_iff]

/-- A finding without its id. -/
def withoutId (f : Finding) : Finding := { f with id := "" }

theorem sortKey_withoutId (f : Finding) : sortKey (withoutId f) = sortKey f := rfl

theorem map_withoutId_arrange (findings : List Finding) :
    (arrange findings).map withoutId =
      (findings.map withoutId).mergeSort fun a b => sortKey a ≤ sortKey b := by
  have hids : (arrange findings).map withoutId = (findings.mergeSort precedes).map withoutId := by
    rw [arrange, List.map_map]
    conv_rhs => rw [← List.zipIdx_map_fst 0 (findings.mergeSort precedes), List.map_map]
    rfl
  rw [hids]
  refine List.map_mergeSort fun a _ b _ => ?_
  rw [precedes_eq, sortKey_withoutId, sortKey_withoutId]

end QueryLint.Lint
