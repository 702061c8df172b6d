import QueryLint.Code.Search
import QueryLint.Proofs.Code.Preorder
import QueryLint.Proofs.Failing

/-!
# Searches from place to place

What is on the stack of a search does not interact: the places that it reports are those of a search
at and below each place of its stack, in the order of the stack. So the search can be written down by
recursion on the tree, `search`, and without a stack.

A search is the pre-order with some places left out. It reports a place exactly if it takes it and
goes on below every place above it, up to the one where the search began.
-/
namespace QueryLint.Code.Place

mutual

/-- The places that a search at and below `here` reports, whose node is the last argument. -/
def searchNode (verdict : Place → Verdict) (here : Place) : Node → List Place
  | .mk _ cs =>
    match verdict here with
    | .skip => []
    | .take => [here]
    | .below => searchNodes verdict here 0 cs

/-- The places that searches report at and below some children of `parent`, the first at position
`i`. -/
def searchNodes (verdict : Place → Verdict) (parent : Place) (i : Nat) : List Node → List Place
  | [] => []
  | n :: ns =>
    searchNode verdict (.child parent i n) n ++ searchNodes verdict parent (i + 1) ns

end

/-- The places that a search at and below `p` reports, in pre-order. -/
def search (verdict : Place → Verdict) (p : Place) : List Place := searchNode verdict p p.node

variable (verdict : Place → Verdict)

theorem searchNodes_eq (parent : Place) (i : Nat) (ns : List Node) :
    searchNodes verdict parent i ns = (parent.childrenFrom i ns).flatMap (search verdict) := by
  induction ns generalizing i with
  | nil => rfl
  | cons n ns ih =>
    rw [searchNodes, ih, childrenFrom, List.flatMap_cons]
    rfl

theorem search_eq (p : Place) :
    p.search verdict =
      match verdict p with
      | .skip => []
      | .take => [p]
      | .below => p.children.flatMap (search verdict) := by
  rcases hp : p.node with ⟨l, cs⟩
  rw [search, hp, searchNode, searchNodes_eq, children, hp]
  rfl

variable {verdict}

/-- A search reports the places it takes, unless it stops at a place above them. -/
theorem mem_search_iff {p q : Place} :
    q ∈ p.search verdict ↔
      q ∈ p.preorder ∧ verdict q = .take ∧
        ∀ a ∈ q.ancestors, p.depth ≤ a.depth → verdict a = .below := by
  induction p using children_induction with
  | step p ih =>
    -- what is asked of the places from `p` on is asked of `p` and of those from a child on
    have hbelow : q ∈ p.descendants → (∀ a ∈ q.ancestors, p.depth ≤ a.depth → verdict a = .below) →
        verdict p = .below := fun hq h =>
      h p (mem_ancestors_of_mem_descendants hq) (Nat.le_refl _)
    have hself : ∀ a ∈ p.ancestors, p.depth ≤ a.depth → verdict a = .below := fun a ha h =>
      absurd (depth_lt_of_mem_ancestors ha) (by omega)
    rw [search_eq, preorder_eq, List.mem_cons]
    cases hv : verdict p with
    | skip =>
      refine iff_of_false (List.not_mem_nil) ?_
      intro hyp
      obtain ⟨rfl | hq, ht, h⟩ := hyp
      · exact nomatch hv.symm.trans ht
      · exact nomatch hv.symm.trans (hbelow hq h)
    | take =>
      rw [List.mem_singleton]
      refine ⟨fun h => ?_, ?_⟩
      · subst h
        exact ⟨.inl rfl, hv, hself⟩
      · intro hyp
        obtain ⟨hq | hq, _, h⟩ := hyp
        · exact hq
        · exact nomatch hv.symm.trans (hbelow hq h)
    | below =>
      rw [List.mem_flatMap]
      constructor
      · intro hyp
        obtain ⟨c, hc, hqc⟩ := hyp
        obtain ⟨hq, ht, h⟩ := (ih c hc).mp hqc
        have hqd : q ∈ p.descendants := List.mem_flatMap.mpr ⟨c, hc, hq⟩
        refine ⟨.inr hqd, ht, fun a ha hpa => ?_⟩
        rcases Nat.eq_or_lt_of_le hpa with heq | hlt
        · rw [← eq_of_depth_eq (mem_ancestors_of_mem_descendants hqd) ha heq]
          exact hv
        · exact h a ha (by rw [depth_of_mem_children hc]; exact hlt)
      · intro hyp
        obtain ⟨hq | hq, ht, h⟩ := hyp
        · subst hq
          exact nomatch hv.symm.trans ht
        · obtain ⟨c, hc, hqc⟩ := List.mem_flatMap.mp hq
          refine ⟨c, hc, (ih c hc).mpr ⟨hqc, ht, fun a ha hca => h a ha ?_⟩⟩
          rw [depth_of_mem_children hc] at hca
          omega

/-- What searches below `p` report, in terms of the places below `p` alone. -/
theorem mem_flatMap_search_iff {p q : Place} :
    q ∈ p.children.flatMap (search verdict) ↔
      q ∈ p.descendants ∧ verdict q = .take ∧
        ∀ a ∈ q.ancestors, p ∈ a.ancestors → verdict a = .below := by
  have hdepth : q ∈ p.descendants → ∀ a ∈ q.ancestors, (p ∈ a.ancestors ↔ p.depth < a.depth) :=
    fun hq a ha => mem_ancestors_iff_depth_lt (mem_ancestors_of_mem_descendants hq) ha
  rw [List.mem_flatMap]
  constructor
  · intro hyp
    obtain ⟨c, hc, hqc⟩ := hyp
    obtain ⟨hq, ht, h⟩ := mem_search_iff.mp hqc
    have hqd : q ∈ p.descendants := List.mem_flatMap.mpr ⟨c, hc, hq⟩
    refine ⟨hqd, ht, fun a ha hpa => h a ha ?_⟩
    have := (hdepth hqd a ha).mp hpa
    rw [depth_of_mem_children hc]
    omega
  · intro hyp
    obtain ⟨hqd, ht, h⟩ := hyp
    obtain ⟨c, hc, hq⟩ := List.mem_flatMap.mp hqd
    refine ⟨c, hc, mem_search_iff.mpr ⟨hq, ht, fun a ha hca => h a ha ?_⟩⟩
    rw [depth_of_mem_children hc] at hca
    exact (hdepth hqd a ha).mpr (by omega)

/-- A search keeps the order. -/
theorem search_sublist (p : Place) : (p.search verdict).Sublist p.preorder := by
  induction p using children_induction with
  | step p ih =>
    rw [search_eq, preorder_eq]
    cases verdict p with
    | skip => exact List.nil_sublist _
    | take => exact (List.nil_sublist _).cons_cons p
    | below => exact (List.Sublist.flatMap_right _ ih).cons p

/-- What a search reports is told by the places one by one. -/
theorem search_eq_filter {p : Place} {reported : Place → Bool}
    (h : ∀ q ∈ p.preorder, q ∈ p.search verdict ↔ reported q) :
    p.search verdict = p.preorder.filter reported := by
  have hsub : (p.search verdict).Sublist p.preorder := search_sublist p
  have hfilter : (p.search verdict).filter reported = p.search verdict :=
    List.filter_eq_self.mpr fun q hq => (h q (hsub.subset hq)).mp hq
  have hpart : (p.search verdict).Sublist (p.preorder.filter reported) := by
    rw [← hfilter]
    exact hsub.filter reported
  have hperm : (p.search verdict).Perm (p.preorder.filter reported) := by
    apply (List.perm_ext_iff_of_nodup ((nodup_preorder p).sublist hsub)
      ((nodup_preorder p).filter _)).mpr
    intro q
    rw [List.mem_filter]
    exact ⟨fun hq => ⟨hsub.subset hq, (h q (hsub.subset hq)).mp hq⟩, fun hq => (h q hq.1).mpr hq.2⟩
  exact hpart.eq_of_length hperm.length_eq

/-- Without effects, what a search on a stack reports is told by the places on the stack one by one. -/
theorem searchOn_pure {m : Type → Type} [Monad m] [LawfulMonad m] (stack : List Place) :
    searchOn (fun p => (pure (verdict p) : m Verdict)) stack =
      pure (stack.flatMap (search verdict)) := by
  match stack with
  | [] =>
    rw [searchOn]
    rfl
  | p :: rest =>
    have hrest := searchOn_pure (m := m) rest
    rw [searchOn, pure_bind, List.flatMap_cons, search_eq]
    cases verdict p with
    | skip => exact hrest
    | take =>
      simp only [hrest, pure_bind]
      rfl
    | below =>
      have hbelow := searchOn_pure (m := m) (push rest p.children.reverse)
      refine hbelow.trans ?_
      rw [push_reverse, List.flatMap_append]
  termination_by sizeOfAll stack
  decreasing_by
    · exact sizeOfAll_lt_cons p rest
    · rw [sizeOfAll_children, push_reverse]
      exact Nat.lt_succ_self _

/-- Whether a search from `p` looks at `q`. -/
inductive Meets (verdict : Place → Verdict) : Place → Place → Prop where
  | here (p : Place) : Meets verdict p p
  | further {p c q : Place} (goesOn : verdict p = .below) (child : c ∈ p.children)
    (rest : Meets verdict c q) : Meets verdict p q

theorem meets_iff {p q : Place} :
    Meets verdict p q ↔ q = p ∨ verdict p = .below ∧ ∃ c ∈ p.children, Meets verdict c q := by
  constructor
  · rintro (_ | ⟨hbelow, hc, hrest⟩)
    · exact .inl rfl
    · exact .inr ⟨hbelow, _, hc, hrest⟩
  · rintro (rfl | ⟨hbelow, c, hc, hrest⟩)
    · exact .here q
    · exact .further hbelow hc hrest

theorem Meets.mem_preorder {p q : Place} (h : Meets verdict p q) : q ∈ p.preorder := by
  induction h with
  | here p => exact mem_preorder_self p
  | further _ hc _ ih => exact preorder_trans (mem_preorder_of_mem_children hc) ih

/-- A search from `p` comes to a bad place if `p` is one, or if it goes on and comes to one from a child. -/
theorem exists_meets_iff {p : Place} {bad : Place → Prop} :
    (∃ q, Meets verdict p q ∧ bad q) ↔
      bad p ∨ verdict p = .below ∧ ∃ c ∈ p.children, ∃ q, Meets verdict c q ∧ bad q := by
  constructor
  · rintro ⟨q, hq, hbad⟩
    rcases meets_iff.mp hq with rfl | ⟨hbelow, c, hc, hrest⟩
    · exact .inl hbad
    · exact .inr ⟨hbelow, c, hc, q, hrest, hbad⟩
  · rintro (hbad | ⟨hbelow, c, hc, q, hrest, hbad⟩)
    · exact ⟨p, .here p, hbad⟩
    · exact ⟨q, .further hbelow hc hrest, hbad⟩

/-- Where the question whether to go on may fail, a search fails exactly if it does at a place that the
search looks at. -/
theorem failsIff_searchOn {ε : Type} {check : Place → Except ε Verdict} {bad : Place → Prop} {e : ε}
    (h : ∀ p, FailsIff (check p) (bad p) e (verdict p)) (stack : List Place) :
    FailsIff (searchOn check stack) (∃ p ∈ stack, ∃ q, Meets verdict p q ∧ bad q) e
      (stack.flatMap (search verdict)) := by
  match stack with
  | [] =>
    rw [searchOn]
    exact (FailsIff.of_ok [] e).congr (by simp)
  | p :: rest =>
    have hrest := failsIff_searchOn h rest
    have hp := h p
    rw [searchOn, List.flatMap_cons, search_eq]
    simp only [List.mem_cons, exists_eq_or_imp, @exists_meets_iff verdict p bad]
    cases hv : verdict p with
    | skip =>
      rw [hv] at hp
      exact (hp.bind fun _ => hrest).congr (by simp)
    | take =>
      rw [hv] at hp
      exact (hp.bind fun _ => hrest.bind fun _ =>
        FailsIff.of_ok (p :: rest.flatMap (search verdict)) e).congr (by simp)
    | below =>
      have hbelow := failsIff_searchOn h (push rest p.children.reverse)
      have hpushed : (push rest p.children.reverse).flatMap (search verdict) =
          p.children.flatMap (search verdict) ++ rest.flatMap (search verdict) := by
        rw [push_reverse, List.flatMap_append]
      rw [hpushed] at hbelow
      rw [hv] at hp
      refine FailsIff.congr (hp.bind fun _ => hbelow) ?_
      simp only [push_reverse, List.mem_append, or_and_right, exists_or, true_and, or_assoc]
  termination_by sizeOfAll stack
  decreasing_by
    · exact sizeOfAll_lt_cons p rest
    · rw [sizeOfAll_children, push_reverse]
      exact Nat.lt_succ_self _

end QueryLint.Code.Place
