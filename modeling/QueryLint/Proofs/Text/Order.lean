import Mathlib.Data.List.Nodup
import Mathlib.Data.List.Sort
import Mathlib.Data.String.Basic
import QueryLint.Text.Order

/-!
# Sorted texts

The texts have a linear order, so what sorting them gives does not depend on the order they come in. Neither
does the order of things under different texts. Sorting changes nothing in texts that are in order, and merging
keeps texts in order.
-/
namespace QueryLint.Text

theorem textLe_iff (a b : String) : textLe a b ↔ a ≤ b := by
  rw [textLe, Bool.not_eq_true', decide_eq_false_iff_not, not_lt]

theorem textLe_trans (a b c : String) (hab : textLe a b) (hbc : textLe b c) : textLe a c := by
  rw [textLe_iff] at hab hbc ⊢
  exact hab.trans hbc

theorem textLe_total (a b : String) : (textLe a b || textLe b a) = true := by
  rw [Bool.or_eq_true, textLe_iff, textLe_iff]
  exact le_total a b

section Keys

variable {α : Type} {key : α → String} {l l' : List α}

theorem pairwise_mergeSort_textLe (key : α → String) (l : List α) :
    (l.mergeSort fun a b => textLe (key a) (key b)).Pairwise fun a b => key a ≤ key b := by
  have hsorted : (l.mergeSort fun a b => textLe (key a) (key b)).Pairwise
      fun a b => textLe (key a) (key b) := List.pairwise_mergeSort
    (fun a b c => textLe_trans (key a) (key b) (key c)) (fun a b => textLe_total (key a) (key b)) l
  exact hsorted.imp fun hab => (textLe_iff _ _).mp hab

/-- Things under different texts are sorted alike, whatever order they come in. -/
theorem mergeSort_textLe_eq_of_perm (hkeys : (l.map key).Nodup) (h : l.Perm l') :
    (l.mergeSort fun a b => textLe (key a) (key b)) =
      l'.mergeSort fun a b => textLe (key a) (key b) := by
  refine List.Perm.eq_of_pairwise ?_ (pairwise_mergeSort_textLe key l) (pairwise_mergeSort_textLe key l')
    (((List.mergeSort_perm l _).trans h).trans (List.mergeSort_perm l' _).symm)
  intro a b ha hb hab hba
  refine List.inj_on_of_nodup_map hkeys (List.mem_mergeSort.mp ha)
    (h.mem_iff.mpr (List.mem_mergeSort.mp hb)) (le_antisymm hab hba)

end Keys

theorem eq_sortTexts_iff {items : List String} : items = sortTexts items ↔ items.SortedLE := by
  constructor
  · intro h
    rw [h]
    exact (pairwise_mergeSort_textLe id items).sortedLE
  · intro h
    exact (List.mergeSort_of_pairwise (h.pairwise.imp fun hab => (textLe_iff _ _).mpr hab)).symm

theorem sortedLE_merge {a b : List String} (ha : a.SortedLE) (hb : b.SortedLE) :
    (a.merge b textLe).SortedLE := by
  have hmerged := List.pairwise_merge textLe_trans textLe_total a b
    (ha.pairwise.imp fun hab => (textLe_iff _ _).mpr hab)
    (hb.pairwise.imp fun hab => (textLe_iff _ _).mpr hab)
  exact (hmerged.imp fun hab => (textLe_iff _ _).mp hab).sortedLE

end QueryLint.Text
