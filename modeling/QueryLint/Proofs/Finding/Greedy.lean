import Mathlib.Data.Prod.Lex
import Mathlib.Order.Bounds.Basic
import QueryLint.Proofs.Finding.Replacement

/-!
# As many edits as can be are applied

Edits that go together can be applied from the last to the first. The greedy choice stays ahead of any
other: when both have taken as many edits, it reaches no further down. So it takes as many as any, and an
edit that it leaves out reaches into one that it took before.

Neither the order in which edits are listed nor their texts play a part in this. What is chosen depends
on the ranges alone, and edits with the same range are told apart by nothing but their texts.
-/
namespace QueryLint.Finding.Edit

open QueryLint.Text

/-- The range of an edit, as edits are sorted by it: by the start, then by the end. -/
def range (e : Edit) : ℤ ×ₗ ℤ := toLex (e.start, e.stop)

/-- Whether two edits cannot both be applied: each ends after the other begins. -/
def Conflicts (a b : Edit) : Prop := b.start < a.stop ∧ a.start < b.stop

/-- Whether edits end within so many bytes and can be put in an order in which each ends at or before
the start of the next. -/
def GoTogether (length : Nat) (edits : List Edit) : Prop :=
  ∃ ordered : List Edit, ordered.Perm edits ∧ (∀ e ∈ ordered, e.stop ≤ length) ∧
    ordered.IsChain fun a b => a.stop ≤ b.start

/-- The sizes of the selections of some edits that go together. -/
def selectionSizes (length : Nat) (edits : List Edit) : Set Nat :=
  {n | ∃ others : List Edit, others.Subperm edits ∧ GoTogether length others ∧ others.length = n}

variable {length : Nat} {e : Edit} {edits sorted chosen others : List Edit}

theorem precedes_iff {a b : Edit} : precedes a b ↔ b.range ≤ a.range := by
  simp only [precedes, range, Prod.Lex.toLex_le_toLex, Bool.or_eq_true, Bool.and_eq_true,
    decide_eq_true_eq, beq_iff_eq]

theorem precedes_trans (a b c : Edit) (hab : precedes a b) (hbc : precedes b c) : precedes a c := by
  rw [precedes_iff] at *
  exact hbc.trans hab

theorem precedes_total (a b : Edit) : precedes a b || precedes b a := by
  rw [Bool.or_eq_true, precedes_iff, precedes_iff]
  exact le_total b.range a.range

theorem pairwise_mergeSort_precedes (edits : List Edit) :
    (edits.mergeSort precedes).Pairwise fun a b => precedes a b :=
  List.pairwise_mergeSort precedes_trans precedes_total edits

section Order

variable {l l' : List Edit} (hperm : l.Perm l') (hl : l.Pairwise fun a b => precedes a b)
  (hl' : l'.Pairwise fun a b => precedes a b)

include hperm hl hl'

/-- Lists of the same edits in the order of application have the same ranges one by one. -/
theorem map_range_eq_of_perm : l.map range = l'.map range := by
  have hdescending : ∀ {m : List Edit}, (m.Pairwise fun a b => precedes a b) →
      (m.map range).Pairwise fun a b => b ≤ a := by
    intro m hm
    rw [List.pairwise_map]
    exact hm.imp fun hab => precedes_iff.mp hab
  apply List.Perm.eq_of_pairwise _ (hdescending hl) (hdescending hl') (hperm.map range)
  intro a b _ _ hab hba
  exact le_antisymm hba hab

/-- Edits that are told apart by their ranges have one order of application. -/
theorem eq_of_perm_of_precedes (hsame : ∀ a ∈ l, ∀ b ∈ l, a.range = b.range → a = b) : l = l' := by
  apply List.Perm.eq_of_pairwise _ hl hl' hperm
  intro a b ha hb hab hba
  rw [precedes_iff] at hab hba
  exact hsame a ha b (hperm.symm.subset hb) (le_antisymm hba hab)

end Order

/-- Whether each edit ends at or before the start of the one that comes before it. -/
def Descends (edits : List Edit) : Prop := edits.IsChain fun a b => b.stop ≤ a.start

theorem Descends.stop_head? (h : Descends (e :: others)) : ∀ d ∈ others.head?, d.stop ≤ e.start := by
  intro d hd
  obtain ⟨rest, rfl⟩ := List.head?_eq_some_iff.mp hd
  exact (List.isChain_cons_cons.mp h).1

theorem descends_iff :
    Descends edits ↔ (edits.map range).IsChain fun a b => (ofLex b).2 ≤ (ofLex a).1 := by
  rw [List.isChain_map, Descends]
  rfl

/-- The greedy choice stays ahead of edits that are taken from the same list in the same order. The
induction is on the list: where the choice takes an edit that the others leave out, they give up their
next one for it, which begins no later. -/
theorem length_le_foldl_select (hsorted : sorted.Pairwise fun a b => precedes a b)
    (hsub : others.Sublist sorted) (hothers : Descends others)
    (hlimit : ∀ e ∈ others.head?, e.stop ≤ limit length chosen) :
    others.length + chosen.length ≤ (sorted.foldl (select length) chosen).length := by
  induction sorted generalizing chosen others with
  | nil =>
    rw [List.sublist_nil.mp hsub, List.length_nil, Nat.zero_add]
    exact Nat.le_refl _
  | cons e sorted ih =>
    obtain ⟨hfirst, hsorted⟩ := List.pairwise_cons.mp hsorted
    rw [List.foldl_cons, select]
    cases hsub with
    | cons _ hsub =>
      split_ifs with htaken
      · cases others with
        | nil =>
          have hrest := @ih (e :: chosen) [] hsorted (List.nil_sublist _) hothers nofun
          simp only [List.length_cons, List.length_nil] at hrest ⊢
          omega
        | cons s rest =>
          have hbefore : s.start ≤ e.start := by
            have hle := precedes_iff.mp (hfirst s (hsub.subset List.mem_cons_self))
            rw [range, range, Prod.Lex.toLex_le_toLex] at hle
            omega
          have hrest := @ih (e :: chosen) rest hsorted ((List.sublist_cons_self s rest).trans hsub)
            hothers.tail fun d hd => (hothers.stop_head? d hd).trans hbefore
          simp only [List.length_cons] at hrest ⊢
          omega
      · exact ih hsorted hsub hothers hlimit
    | cons_cons _ hsub =>
      rename_i rest
      have hrest := @ih (e :: chosen) rest hsorted hsub hothers.tail hothers.stop_head?
      rw [if_pos (hlimit e rfl)]
      simp only [List.length_cons] at hrest ⊢
      omega

/-- Edits in an order in which each ends at or before the start of the next are, from the last to the
first, in the order of application. -/
theorem pairwise_reverse_of_isChain (hrange : ∀ e ∈ edits, 0 ≤ e.start ∧ e.start ≤ e.stop)
    (hchain : edits.IsChain fun a b => a.stop ≤ b.start) :
    edits.reverse.Pairwise fun a b => precedes a b := by
  have hordered : edits.IsChain fun a b => a.range ≤ b.range := by
    refine hchain.imp_of_mem_imp fun a b ha hb hab => ?_
    have hleft := (hrange a ha).2
    have hright := (hrange b hb).2
    rw [range, range, Prod.Lex.toLex_le_toLex]
    omega
  rw [List.pairwise_reverse]
  exact (List.isChain_iff_pairwise.mp hordered).imp fun hab => precedes_iff.mpr hab

/-- No edits that go together are more than those that are chosen. -/
theorem length_le_selection (hrange : ∀ e ∈ edits, 0 ≤ e.start ∧ e.start ≤ e.stop)
    (hsub : others.Subperm edits) (htogether : GoTogether length others) :
    others.length ≤ (selection length edits).length := by
  obtain ⟨ordered, hperm, hinside, hchain⟩ := htogether
  have hdown : ordered.reverse.Pairwise fun a b => precedes a b := by
    apply pairwise_reverse_of_isChain _ hchain
    exact fun e he => hrange e (hsub.subset (hperm.subset he))
  -- among the sorted edits, the same ranges come in the same order
  obtain ⟨taken, htaken, hsublist⟩ :
      ordered.reverse.Subperm (edits.mergeSort precedes) :=
    ((List.reverse_perm ordered).trans hperm).subperm.trans
      (hsub.trans (List.mergeSort_perm edits precedes).symm.subperm)
  have hranges : taken.map range = ordered.reverse.map range :=
    map_range_eq_of_perm htaken ((pairwise_mergeSort_precedes edits).sublist hsublist) hdown
  have hdescends : Descends taken := by
    rw [descends_iff, hranges, ← descends_iff]
    exact List.isChain_reverse.mpr hchain
  have hinside : ∀ e ∈ taken.head?, e.stop ≤ limit length [] := by
    intro e he
    exact hinside e (List.mem_reverse.mp (htaken.subset (List.mem_of_mem_head? he)))
  calc others.length
      = taken.length := by rw [htaken.length_eq, List.length_reverse, hperm.length_eq]
    _ ≤ (selection length edits).length :=
      length_le_foldl_select (pairwise_mergeSort_precedes edits) hsublist hdescends hinside

/-- The number of edits that are chosen is the greatest size of a selection that goes together. -/
theorem isGreatest_selectionSizes (bytes : Bytes)
    (hrange : ∀ e ∈ edits, 0 ≤ e.start ∧ e.start ≤ e.stop) :
    IsGreatest (selectionSizes bytes.length edits) (selection bytes.length edits).length := by
  have hfollow := (tracks_applyBytes bytes hrange).follow
  constructor
  · exact ⟨_, selection_subperm bytes hrange, ⟨_, .refl _, hfollow.inside, hfollow.chain⟩, rfl⟩
  · rintro n ⟨others, hsub, htogether, rfl⟩
    exact length_le_selection hrange hsub htogether

/-- What becomes of the edits seen so far: some are chosen, and each of the others ends too late or
reaches into one that was chosen before it. -/
structure Settles (length : Nat) (seen chosen refused : List Edit) : Prop where
  perm : (chosen ++ refused).Perm seen
  excused : ∀ e ∈ refused, (length : Int) < e.stop ∨ ∃ a ∈ chosen, e.start ≤ a.start ∧ Conflicts e a

theorem conflicts_of_precedes {a : Edit} (ha : a.start ≤ a.stop) (hbefore : precedes a e)
    (hrefused : a.start < e.stop) : e.start ≤ a.start ∧ Conflicts e a := by
  have hle := precedes_iff.mp hbefore
  rw [range, range, Prod.Lex.toLex_le_toLex] at hle
  rw [Conflicts]
  omega

theorem Settles.step {seen refused : List Edit} (h : Settles length seen chosen refused)
    (hseen : ∀ a ∈ seen, a.start ≤ a.stop ∧ precedes a e) :
    ∃ refused, Settles length (seen ++ [e]) (select length chosen e) refused := by
  rw [select]
  split_ifs with htaken
  · refine ⟨refused, ?_, ?_⟩
    · exact (h.perm.cons e).trans (List.perm_append_singleton e seen).symm
    · intro d hd
      cases h.excused d hd with
      | inl hlate => exact .inl hlate
      | inr hconflict =>
        obtain ⟨a, ha, hafter⟩ := hconflict
        exact .inr ⟨a, List.mem_cons_of_mem _ ha, hafter⟩
  · refine ⟨refused ++ [e], ?_, ?_⟩
    · rw [← List.append_assoc]
      exact h.perm.append_right [e]
    · intro d hd
      cases List.mem_append.mp hd with
      | inl hd => exact h.excused d hd
      | inr hd =>
        cases List.mem_singleton.mp hd
        cases chosen with
        | nil => exact .inl (Int.not_le.mp htaken)
        | cons c chosen =>
          obtain ⟨hc, hbefore⟩ := hseen c (h.perm.subset List.mem_cons_self)
          exact .inr ⟨c, List.mem_cons_self,
            conflicts_of_precedes hc hbefore (Int.not_le.mp htaken)⟩

theorem Settles.run {seen refused : List Edit} (h : Settles length seen chosen refused)
    (hrange : ∀ e ∈ seen ++ edits, e.start ≤ e.stop)
    (hsorted : (seen ++ edits).Pairwise fun a b => precedes a b) :
    ∃ refused, Settles length (seen ++ edits) (edits.foldl (select length) chosen) refused := by
  induction edits generalizing seen chosen refused with
  | nil =>
    rw [List.append_nil]
    exact ⟨refused, h⟩
  | cons e edits ih =>
    have hseen : ∀ a ∈ seen, a.start ≤ a.stop ∧ precedes a e := by
      intro a ha
      exact ⟨hrange a (List.mem_append_left _ ha),
        (List.pairwise_append.mp hsorted).2.2 a ha e List.mem_cons_self⟩
    obtain ⟨refused, hstep⟩ := h.step hseen
    rw [← List.singleton_append, ← List.append_assoc] at hrange hsorted ⊢
    exact ih hstep hrange hsorted

/-- Each edit that is not chosen has a reason for it. -/
theorem exists_settles (hrange : ∀ e ∈ edits, 0 ≤ e.start ∧ e.start ≤ e.stop) :
    ∃ refused, Settles length edits (selection length edits) refused := by
  have hsort := List.mergeSort_perm edits precedes
  have hstart : Settles length [] [] [] := ⟨.nil, by simp⟩
  have hrange' : ∀ e ∈ [] ++ edits.mergeSort precedes, e.start ≤ e.stop :=
    fun e he => (hrange e (hsort.subset he)).2
  obtain ⟨refused, h⟩ := hstart.run hrange' (pairwise_mergeSort_precedes edits)
  exact ⟨refused, h.perm.trans hsort, h.excused⟩

theorem selectionSizes_eq_of_perm {shuffled : List Edit} (hperm : edits.Perm shuffled) :
    selectionSizes length edits = selectionSizes length shuffled := by
  ext n
  simp only [selectionSizes, hperm.subperm_left]

/-- Edits with one text for each range come in one order. -/
theorem mergeSort_precedes_eq_of_perm {shuffled : List Edit} (hperm : edits.Perm shuffled)
    (hsame : ∀ a ∈ edits, ∀ b ∈ edits, a.start = b.start → a.stop = b.stop → a.text = b.text) :
    edits.mergeSort precedes = shuffled.mergeSort precedes := by
  have hsort := List.mergeSort_perm edits precedes
  apply eq_of_perm_of_precedes _ (pairwise_mergeSort_precedes edits)
    (pairwise_mergeSort_precedes shuffled)
  · intro a ha b hb hab
    have hbounds := Prod.ext_iff.mp (toLex.injective hab)
    rw [Edit.mk.injEq]
    exact ⟨hbounds.1, hbounds.2,
      hsame a (hsort.subset ha) b (hsort.subset hb) hbounds.1 hbounds.2⟩
  · exact hsort.trans (hperm.trans (List.mergeSort_perm shuffled precedes).symm)

variable {text : String}

/-- No more edits could be applied than are: they are as many as any selection that goes together, and
each edit that is skipped ends past the text or conflicts with one that is applied at or after its
start. -/
theorem applyAll_drops_least (hrange : ∀ e ∈ edits, 0 ≤ e.start ∧ e.start ≤ e.stop)
    (hboundary : ∀ e ∈ edits, e.stop ≤ byteLength text →
      IsBoundary text e.start ∧ IsBoundary text e.stop) :
    ∃ outcome, ∃ applied skipped : List Edit, applyAll text edits = .ok outcome ∧
      (applied ++ skipped).Perm edits ∧ (applied.IsChain fun a b => a.stop ≤ b.start) ∧
      (∀ e ∈ applied, e.stop ≤ byteLength text) ∧
      utf8 outcome.text = weave (utf8 text) 0 applied ∧
      outcome.applied = applied.length ∧ outcome.skipped = skipped.length ∧
      IsGreatest (selectionSizes (byteLength text) edits) outcome.applied ∧
      ∀ e ∈ skipped, (byteLength text : Int) < e.stop ∨
        ∃ a ∈ applied, e.start ≤ a.start ∧ Conflicts e a := by
  have hgreatest := isGreatest_selectionSizes (utf8 text) hrange
  have hfollow := (tracks_applyBytes (utf8 text) hrange).follow
  rw [length_utf8] at hgreatest hfollow
  obtain ⟨outcome, hok, htext, happlied, htotal⟩ := applyAll_eq_selection hrange hboundary
  obtain ⟨skipped, hperm, hexcused⟩ := @exists_settles (byteLength text) edits hrange
  have hskipped : outcome.skipped = skipped.length := by
    have hlength := hperm.length_eq
    rw [List.length_append] at hlength
    omega
  exact ⟨outcome, _, skipped, hok, hperm, hfollow.chain, hfollow.inside, htext, happlied, hskipped,
    happlied ▸ hgreatest, hexcused⟩

/-- Edits of `aébc`: one that ends past the text, a replacement with two insertions at its start, and one
that reaches into it from before. -/
def crowded : List Edit := [⟨4, 9, "z"⟩, ⟨1, 4, "x"⟩, ⟨1, 1, "i"⟩, ⟨1, 1, "i"⟩, ⟨0, 3, "y"⟩]

theorem isBoundary_of_mem_crowded : ∀ e ∈ crowded, e.stop ≤ byteLength "aébc" →
    IsBoundary "aébc" e.start ∧ IsBoundary "aébc" e.stop := by
  have hboundary : ∀ n ∈ [(0 : Int), 1, 3, 4], IsBoundary "aébc" n := by
    simp only [List.forall_mem_cons]
    exact ⟨⟨"", "aébc", rfl, rfl⟩, ⟨"a", "ébc", rfl, rfl⟩, ⟨"aé", "bc", rfl, rfl⟩,
      ⟨"aéb", "c", rfl, rfl⟩, nofun⟩
  have hoffsets : ∀ e ∈ crowded, e.stop ≤ byteLength "aébc" →
      e.start ∈ [(0 : Int), 1, 3, 4] ∧ e.stop ∈ [(0 : Int), 1, 3, 4] := by decide
  intro e he hstop
  exact ⟨hboundary _ (hoffsets e he hstop).1, hboundary _ (hoffsets e he hstop).2⟩

/-- Three edits of `crowded` are applied, and no more could be. -/
theorem applyAll_crowded :
    ∃ outcome, applyAll "aébc" crowded = .ok outcome ∧ outcome.applied = 3 ∧ outcome.skipped = 2 ∧
      IsGreatest (selectionSizes (byteLength "aébc") crowded) 3 := by
  have hrange : ∀ e ∈ crowded, 0 ≤ e.start ∧ e.start ≤ e.stop := by decide
  obtain ⟨outcome, applied, skipped, hok, hperm, _, _, _, happlied, hskipped, hgreatest, _⟩ :=
    applyAll_drops_least hrange isBoundary_of_mem_crowded
  have hchosen : (selection (utf8 "aébc").length crowded).length = 3 := by
    have hsorted : crowded.mergeSort precedes = crowded := List.mergeSort_of_pairwise (by decide)
    rw [selection, hsorted]
    rfl
  have hthree := isGreatest_selectionSizes (utf8 "aébc") hrange
  rw [hchosen, length_utf8] at hthree
  have hcount := hgreatest.unique hthree
  have htotal := hperm.length_eq
  rw [List.length_append, ← happlied, ← hskipped, hcount] at htotal
  have hfive : crowded.length = 5 := rfl
  exact ⟨outcome, hok, hcount, by omega, hthree⟩

/-- The counts do not depend on the order in which the edits are listed, and neither does the text if
edits with the same range have the same text. -/
theorem applyAll_perm {shuffled : List Edit} (hperm : edits.Perm shuffled)
    (hrange : ∀ e ∈ edits, 0 ≤ e.start ∧ e.start ≤ e.stop)
    (hboundary : ∀ e ∈ edits, e.stop ≤ byteLength text →
      IsBoundary text e.start ∧ IsBoundary text e.stop) :
    ∃ outcome outcome' : Outcome, applyAll text edits = .ok outcome ∧
      applyAll text shuffled = .ok outcome' ∧ outcome'.applied = outcome.applied ∧
      outcome'.skipped = outcome.skipped ∧
      ((∀ a ∈ edits, ∀ b ∈ edits, a.start = b.start → a.stop = b.stop → a.text = b.text) →
        outcome'.text = outcome.text) := by
  have hrange' : ∀ e ∈ shuffled, 0 ≤ e.start ∧ e.start ≤ e.stop :=
    fun e he => hrange e (hperm.symm.subset he)
  obtain ⟨outcome, hok, -, happlied, htotal⟩ := applyAll_eq_selection hrange hboundary
  obtain ⟨outcome', hok', -, happlied', htotal'⟩ :=
    applyAll_eq_selection hrange' fun e he => hboundary e (hperm.symm.subset he)
  -- both counts are the greatest size of a selection of the same edits
  have hgreatest := isGreatest_selectionSizes (utf8 text) hrange
  have hgreatest' := isGreatest_selectionSizes (utf8 text) hrange'
  rw [← selectionSizes_eq_of_perm hperm] at hgreatest'
  rw [length_utf8] at hgreatest hgreatest'
  have hcount := hgreatest'.unique hgreatest
  have hlength := hperm.length_eq
  refine ⟨outcome, outcome', hok, hok', by omega, by omega, ?_⟩
  intro hsame
  rw [applyAll, applyBytes, ← mergeSort_precedes_eq_of_perm hperm hsame] at hok'
  rw [applyAll, applyBytes, hok'] at hok
  cases hok
  rfl

/-- The edits of `crowded` in the opposite order come to the same. -/
theorem applyAll_crowded_reverse :
    ∃ outcome outcome' : Outcome, applyAll "aébc" crowded = .ok outcome ∧
      applyAll "aébc" crowded.reverse = .ok outcome' ∧ outcome'.applied = outcome.applied ∧
      outcome'.skipped = outcome.skipped ∧ outcome'.text = outcome.text := by
  have hrange : ∀ e ∈ crowded, 0 ≤ e.start ∧ e.start ≤ e.stop := by decide
  obtain ⟨outcome, outcome', hok, hok', happlied, hskipped, htext⟩ :=
    applyAll_perm (List.reverse_perm crowded).symm hrange isBoundary_of_mem_crowded
  exact ⟨outcome, outcome', hok, hok', happlied, hskipped, htext (by decide)⟩

end QueryLint.Finding.Edit
