import QueryLint.Proofs.Code.Search
import QueryLint.Proofs.Code.Spans
import QueryLint.Proofs.Text.InOrder

/-!
# Tokens

The tokens of a place are the leaves at and below it that are no comments. They are apart from each
other, so the text at a place has the texts of its tokens in order.
-/
namespace QueryLint.Code

open QueryLint.Text

namespace Place

/-- The leaves at and below a place, in pre-order, without comments. -/
def tokens (p : Place) : List Place :=
  p.search fun t =>
    if t.kind = Kind.comment then .skip else if t.node.children.isEmpty then .take else .below

theorem tokens_sublist_preorder (p : Place) : p.tokens.Sublist p.preorder := search_sublist p

theorem nodup_tokens (p : Place) : p.tokens.Nodup := p.tokens_sublist_preorder.nodup (nodup_preorder p)

theorem leaf_of_mem_tokens {p t : Place} (h : t ∈ p.tokens) : t.descendants = [] := by
  have htake := (mem_search_iff.mp h).2.1
  split_ifs at htake with _ hleaf
  rw [descendants, children, List.isEmpty_iff.mp hleaf]
  rfl

/-- A leaf is its own token, and the tokens of any other place are those of its children. -/
theorem mem_tokens_cases {p t : Place} (h : t ∈ p.tokens) :
    p.kind ≠ Kind.comment ∧
      (p.node.children.isEmpty ∧ t = p ∨ ¬ p.node.children.isEmpty ∧ ∃ c ∈ p.children, t ∈ c.tokens) := by
  rw [tokens, search_eq] at h
  split_ifs at h with hcomment hleaf
  · cases h
  · exact ⟨hcomment, .inl ⟨hleaf, List.mem_singleton.mp h⟩⟩
  · exact ⟨hcomment, .inr ⟨hleaf, List.mem_flatMap.mp h⟩⟩

theorem eq_of_mem_tokens {p t : Place} (hleaf : p.node.children.isEmpty) (h : t ∈ p.tokens) :
    t = p := by
  cases (mem_tokens_cases h).2 with
  | inl hself => exact hself.2
  | inr hbelow => exact absurd hleaf hbelow.1

/-- Each token of a place with a child is that of a child. -/
theorem exists_child_of_mem_tokens {p c t : Place} (hc : c ∈ p.children) (h : t ∈ p.tokens) :
    ∃ d ∈ p.children, d.kind ≠ Kind.comment ∧ t ∈ d.tokens := by
  cases (mem_tokens_cases h).2 with
  | inl hself =>
    have hmem := node_mem_of_mem_children hc
    rw [List.isEmpty_iff.mp hself.1] at hmem
    cases hmem
  | inr hbelow =>
    obtain ⟨_, d, hd, ht⟩ := hbelow
    exact ⟨d, hd, (mem_tokens_cases ht).1, ht⟩

/-- The tokens of some children are among the tokens of a place, in the same order. -/
theorem tokens_sublist {p : Place} (hkind : p.kind ≠ Kind.comment) {cs : List Place}
    (h : cs.Sublist p.children) : (cs.flatMap tokens).Sublist p.tokens := by
  rw [tokens, search_eq, if_neg hkind]
  by_cases hleaf : p.node.children.isEmpty
  · have hnone : p.children = [] := by
      rw [children, List.isEmpty_iff.mp hleaf]
      rfl
    rw [hnone] at h
    rw [List.sublist_nil.mp h]
    exact List.nil_sublist _
  · rw [if_neg hleaf]
    exact h.flatMap _

theorem tokens_sublist_of_mem {p c : Place} (hkind : p.kind ≠ Kind.comment) (h : c ∈ p.children) :
    c.tokens.Sublist p.tokens := by
  have hsub := tokens_sublist hkind (List.singleton_sublist.mpr h)
  rwa [List.flatMap_cons, List.flatMap_nil, List.append_nil] at hsub

/-- Parentheses have the tokens of what is inside them. -/
theorem tokens_sublist_of_unwrap {p e : Place} (h : p.unwrap = some e) :
    e.tokens.Sublist p.tokens := by
  induction h using unwrap_induction with
  | self p => exact List.Sublist.refl _
  | inside p c e _ _ hkind hc ih =>
    have hparenthesized : p.kind ≠ Kind.comment := by
      rw [hkind]
      decide
    exact ih.trans (tokens_sublist_of_mem hparenthesized (mem_children_of_mem_parts hc))

theorem children_sublist_preorder (p : Place) : p.children.Sublist p.preorder := by
  have hheads : ∀ cs : List Place, cs.Sublist (cs.flatMap preorder) := by
    intro cs
    induction cs with
    | nil => exact List.nil_sublist _
    | cons c cs ih =>
      rw [List.flatMap_cons, preorder_eq, List.cons_append]
      exact (ih.trans (List.sublist_append_right _ _)).cons_cons c
  rw [preorder_eq]
  exact (hheads p.children).cons p

/-- Of two children, the one with the lesser number comes first. -/
theorem pair_sublist_children {p c d : Place} (hc : c ∈ p.children) (hd : d ∈ p.children)
    (h : c.number < d.number) : [c, d].Sublist p.children := by
  have hnumbers : p.children.Pairwise fun a b => a.number < b.number := by
    have hall : p.preorder.Pairwise fun a b => a.number < b.number := by
      rw [← List.pairwise_map, map_number_preorder]
      exact List.pairwise_lt_range'
    exact hall.sublist p.children_sublist_preorder
  obtain ⟨before, after, hsplit⟩ := List.append_of_mem hc
  rw [hsplit] at hd hnumbers ⊢
  have hafter : d ∈ after := by
    rcases List.mem_append.mp hd with hbefore | hrest
    · have := (List.pairwise_append.mp hnumbers).2.2 d hbefore c List.mem_cons_self
      omega
    · rcases List.mem_cons.mp hrest with rfl | hafter
      · omega
      · exact hafter
  exact ((List.singleton_sublist.mpr hafter).cons_cons c).trans (List.sublist_append_right _ _)

variable {tree : Node}

/-- Tokens follow each other. -/
theorem pairwise_tokens (nested : tree.Nested) {p : Place} (hp : p ∈ tree.places) :
    p.tokens.Pairwise fun a b => a.stop ≤ b.start := by
  have hpairs := (pairwise_preorder nested hp).sublist p.tokens_sublist_preorder
  refine hpairs.imp_of_mem fun {a b} ha hb hab => ?_
  rcases hab with habove | hapart
  · -- nothing is below a leaf
    have hat := preorder_trans hp (p.tokens_sublist_preorder.subset ha)
    have hbt := preorder_trans hp (p.tokens_sublist_preorder.subset hb)
    have hbelow := (mem_descendants_iff hat).mpr ⟨hbt, habove⟩
    rw [leaf_of_mem_tokens ha] at hbelow
    cases hbelow
  · exact hapart

end Place

section Texts

variable {source : Source} (spans : source.tree.Spans source.text)
include spans

/-- What stands at places that follow each other in a range is found in this order in the text of the
range. -/
theorem inOrder_textOf {ps : List Place} {start stop : Nat} {s : String}
    (hplaces : ∀ p ∈ ps, p ∈ source.tree.places)
    (hpairs : ps.Pairwise fun a b => a.stop ≤ b.start)
    (hinside : ∀ p ∈ ps, start ≤ p.start ∧ p.stop ≤ stop) (hstart : IsBoundary source.text start)
    (hstop : IsBoundary source.text stop) (hs : utf8 s = slice source.data start stop) :
    InOrder (ps.map source.textOf) s := by
  induction ps generalizing start s with
  | nil => exact .nil _
  | cons p ps ih =>
    obtain ⟨hp, hrest⟩ := List.forall_mem_cons.mp hplaces
    obtain ⟨hfirst, hpairs⟩ := List.pairwise_cons.mp hpairs
    obtain ⟨hin, hinside⟩ := List.forall_mem_cons.mp hinside
    have hrange := spans.range p hp
    have hboundary := spans.boundary p hp
    obtain ⟨front, hfront⟩ := exists_utf8_slice hstart hboundary.1 hin.1
    obtain ⟨back, hback⟩ := exists_utf8_slice hboundary.2 hstop hin.2
    refine ⟨front, back, ?_, ?_⟩
    · apply eq_of_utf8_eq
      rw [utf8_append, utf8_append, ← hfront, ← hback, Source.utf8_textOf spans hp, hs, Source.data,
        slice_append _ hin.1 hrange, slice_append _ (hin.1.trans hrange) hin.2]
    · exact ih hrest hpairs (fun q hq => ⟨hfirst q hq, (hinside q hq).2⟩) hboundary.2 hback.symm

/-- The text at a place has the texts of its tokens in order. -/
theorem inOrder_tokens (nested : source.tree.Nested) {p : Place} (hp : p ∈ source.tree.places) :
    InOrder (p.tokens.map source.textOf) (source.textOf p) := by
  have hbelow : ∀ t ∈ p.tokens, t ∈ p.preorder := fun t ht =>
    p.tokens_sublist_preorder.subset ht
  apply inOrder_textOf spans
  · exact fun t ht => Place.preorder_trans hp (hbelow t ht)
  · exact Place.pairwise_tokens nested hp
  · exact fun t ht => Place.within_of_mem_preorder nested hp (hbelow t ht)
  · exact (spans.boundary p hp).1
  · exact (spans.boundary p hp).2
  · exact Source.utf8_textOf spans hp

end Texts

end QueryLint.Code
