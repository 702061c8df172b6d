import Mathlib.Data.List.Forall2
import QueryLint.Lint.Basic
import QueryLint.Proofs.Code.Walk
import QueryLint.Proofs.Limits

/-!
# Rules on one walk

All rules listen to one walk, and their listeners are called in turn, each on the notes of its own
rule. So the walk can be taken apart: a call changes the notes of one rule only, and the calls of one
rule, in their order, are those of a walk of that rule alone. The walk fails if a walk of one of its rules
does, and for the same reason.
-/
namespace QueryLint.Lint

open QueryLint.Code QueryLint.Rule QueryLint.Code.ListenerTable

/-- The calls of the listeners of one rule. -/
def soloCalls (rule : Rule) (tree : Node) : List (Listener × Occasion) :=
  tree.places.flatMap (fun p => (listenersFor rule.listeners p.kind).map (·, .visit p)) ++
    (listenersFor rule.listeners programExit).map (·, .finish)

/-- Calls a listener on notes. -/
def call (limits : Limits) (source : Source) (own : Notes) (called : Listener × Occasion) :
    Except Failure Notes :=
  called.1 limits source called.2 own

/-- The notes of one rule after a walk of its own through a source. -/
def soloWalk (source : Source) (rule : Rule) (limits : Limits := .unlimited) : Except Failure Notes :=
  (soloCalls rule source.tree).foldlM (call limits source) .empty

/-- The calls that go to the rule at a position, without the position. -/
def callsOf (i : Nat) (calls : List ((Nat × Listener) × Occasion)) : List (Listener × Occasion) :=
  calls.filterMap fun call => if call.1.1 = i then some (call.1.2, call.2) else none

theorem callsOf_append (i : Nat) (xs ys : List ((Nat × Listener) × Occasion)) :
    callsOf i (xs ++ ys) = callsOf i xs ++ callsOf i ys :=
  List.filterMap_append

theorem callsOf_cons (i j : Nat) (listener : Listener) (occasion : Occasion)
    (calls : List ((Nat × Listener) × Occasion)) :
    callsOf i (((j, listener), occasion) :: calls) =
      if j = i then (listener, occasion) :: callsOf i calls else callsOf i calls := by
  by_cases h : j = i <;> simp [callsOf, h]

/-- The listeners of some rules, each with the position of its rule, the first at `n`. -/
def numbered (chosen : List Chosen) (n : Nat) : List (Registration (Nat × Listener)) :=
  (chosen.zipIdx n).map fun (c, i) => c.rule.listeners.map fun entry => (entry.1, (i, entry.2))

/-- The calls of all listeners for a kind. -/
def numberedCalls (chosen : List Chosen) (n : Nat) (key : Kind) (occasion : Occasion) :
    List ((Nat × Listener) × Occasion) :=
  ((numbered chosen n).flatMap (listenersFor · key)).map (·, occasion)

variable {key : Kind} {occasion : Occasion}

theorem callsOf_numberedCalls_cons (i n : Nat) (c : Chosen) (chosen : List Chosen) :
    callsOf i (numberedCalls (c :: chosen) n key occasion) =
      (if n = i then (listenersFor c.rule.listeners key).map (·, occasion) else []) ++
        callsOf i (numberedCalls chosen (n + 1) key occasion) := by
  have hsplit : numberedCalls (c :: chosen) n key occasion =
      ((listenersFor c.rule.listeners key).map fun listener => ((n, listener), occasion)) ++
        numberedCalls chosen (n + 1) key occasion := by
    rw [numberedCalls, numbered, List.zipIdx_cons, List.map_cons, List.flatMap_cons, List.map_append,
      listenersFor_map, List.map_map]
    rfl
  rw [hsplit, callsOf_append]
  congr 1
  by_cases h : n = i <;> simp [callsOf, List.filterMap_map, h]

theorem callsOf_numberedCalls_lt {i n : Nat} (h : i < n) (chosen : List Chosen) :
    callsOf i (numberedCalls chosen n key occasion) = [] := by
  induction chosen generalizing n with
  | nil => rfl
  | cons c chosen ih =>
    rw [callsOf_numberedCalls_cons, if_neg (by omega), ih (by omega), List.append_nil]

theorem callsOf_numberedCalls {chosen : List Chosen} {n i : Nat} {c : Chosen}
    (h : chosen[i]? = some c) :
    callsOf (n + i) (numberedCalls chosen n key occasion) =
      (listenersFor c.rule.listeners key).map (·, occasion) := by
  induction chosen generalizing n i with
  | nil => cases h
  | cons d chosen ih =>
    rw [callsOf_numberedCalls_cons]
    cases i with
    | zero =>
      cases h
      rw [if_pos (by omega), callsOf_numberedCalls_lt (by omega), List.append_nil]
    | succ i =>
      have hrest := @ih (n + 1) i h
      have hsum : n + 1 + i = n + (i + 1) := by omega
      rw [hsum] at hrest
      rw [if_neg (by omega), hrest, List.nil_append]

/-- Among the calls of a walk, those of one rule are the calls of a walk of its own. -/
theorem callsOf_calls {chosen : List Chosen} {i : Nat} {c : Chosen} (h : chosen[i]? = some c)
    (tree : Node) : callsOf i ((listeners chosen).calls tree) = soloCalls c.rule tree := by
  have hkey : ∀ key occasion, callsOf i (numberedCalls chosen 0 key occasion) =
      (listenersFor c.rule.listeners key).map (·, occasion) := by
    intro key occasion
    have hi := @callsOf_numberedCalls key occasion chosen 0 i c h
    rwa [Nat.zero_add] at hi
  have hcalls : (listeners chosen).calls tree =
      tree.places.flatMap (fun p => numberedCalls chosen 0 p.kind (.visit p)) ++
        numberedCalls chosen 0 programExit .finish :=
    calls_merge (numbered chosen 0) tree
  rw [hcalls, callsOf_append, soloCalls, hkey]
  congr 1
  generalize tree.places = places
  induction places with
  | nil => rfl
  | cons p places ih =>
    rw [List.flatMap_cons, List.flatMap_cons, callsOf_append, hkey, ih]

variable {limits : Limits} {source : Source}

section Steps

variable {notes : List Notes} {j : Nat} {listener : Listener} {occasion : Occasion} {own : Notes}

theorem answer_of_none (h : notes[j]? = none) :
    answer limits source notes ((j, listener), occasion) = .ok notes := by
  simp only [answer, h]

theorem answer_of_some (h : notes[j]? = some own) :
    answer limits source notes ((j, listener), occasion) =
      (listener limits source occasion own).map (notes.set j ·) := by
  simp only [answer, h]

/-- A run for one rule makes the calls of its own listeners. -/
theorem foldlM_callsOf_self (calls : List ((Nat × Listener) × Occasion)) :
    (callsOf j (((j, listener), occasion) :: calls)).foldlM (call limits source) own =
      listener limits source occasion own >>= (callsOf j calls).foldlM (call limits source) := by
  rw [callsOf_cons, if_pos rfl, List.foldlM_cons]
  rfl

theorem callsOf_other {i : Nat} (h : j ≠ i) (calls : List ((Nat × Listener) × Occasion)) :
    callsOf i (((j, listener), occasion) :: calls) = callsOf i calls := by
  rw [callsOf_cons, if_neg h]

end Steps

/-- A run over the notes of all rules that comes to an end comes to the end of a run for each rule. -/
theorem foldlM_answer_ok (calls : List ((Nat × Listener) × Occasion)) {before after : List Notes}
    (h : calls.foldlM (answer limits source) before = .ok after) :
    before.length = after.length ∧
      ∀ i own own', before[i]? = some own → after[i]? = some own' →
        (callsOf i calls).foldlM (call limits source) own = .ok own' := by
  induction calls generalizing before with
  | nil =>
    cases h
    refine ⟨rfl, fun i own own' hown hown' => ?_⟩
    cases hown.symm.trans hown'
    rfl
  | cons called calls ih =>
    obtain ⟨⟨j, listener⟩, occasion⟩ := called
    rw [List.foldlM_cons] at h
    obtain ⟨between, hstep, hrest⟩ := bind_eq_ok_iff.mp h
    obtain ⟨hlength, hruns⟩ := ih hrest
    cases hj : before[j]? with
    | none =>
      rw [answer_of_none hj] at hstep
      cases hstep
      refine ⟨hlength, fun i own own' hown hown' => ?_⟩
      have hij : j ≠ i := fun hij => nomatch (hij ▸ hj).symm.trans hown
      rw [callsOf_other hij]
      exact hruns i own own' hown hown'
    | some own =>
      have hlt : j < before.length := (List.getElem?_eq_some_iff.mp hj).1
      rw [answer_of_some hj] at hstep
      cases hnext : listener limits source occasion own with
      | error e =>
        rw [hnext] at hstep
        cases hstep
      | ok next =>
        rw [hnext] at hstep
        cases hstep
        refine ⟨(List.length_set ..).symm.trans hlength, fun i own' own'' hown hown' => ?_⟩
        by_cases hij : j = i
        · subst hij
          cases hj.symm.trans hown
          have hset : (before.set j next)[j]? = some next := List.getElem?_set_self hlt
          rw [foldlM_callsOf_self, hnext]
          exact hruns j next own'' hset hown'
        · have hset : (before.set j next)[i]? = some own' := by
            rw [List.getElem?_set_ne hij, hown]
          rw [callsOf_other hij]
          exact hruns i own' own'' hset hown'

/-- A run over the notes of all rules that fails, fails in the run for one of them. -/
theorem foldlM_answer_error (calls : List ((Nat × Listener) × Occasion)) {before : List Notes}
    {e : Failure} (h : calls.foldlM (answer limits source) before = .error e) :
    ∃ i own, before[i]? = some own ∧
      (callsOf i calls).foldlM (call limits source) own = .error e := by
  induction calls generalizing before with
  | nil => cases h
  | cons called calls ih =>
    obtain ⟨⟨j, listener⟩, occasion⟩ := called
    rw [List.foldlM_cons] at h
    cases hj : before[j]? with
    | none =>
      rw [answer_of_none hj] at h
      obtain ⟨i, own, hown, hfails⟩ := ih h
      have hij : j ≠ i := fun hij => nomatch (hij ▸ hj).symm.trans hown
      exact ⟨i, own, hown, by rwa [callsOf_other hij]⟩
    | some own =>
      have hlt : j < before.length := (List.getElem?_eq_some_iff.mp hj).1
      rw [answer_of_some hj] at h
      cases hnext : listener limits source occasion own with
      | error e' =>
        rw [hnext] at h
        cases h
        refine ⟨j, own, hj, ?_⟩
        rw [foldlM_callsOf_self, hnext]
        rfl
      | ok next =>
        rw [hnext] at h
        obtain ⟨i, own', hown, hfails⟩ := ih h
        by_cases hij : j = i
        · subst hij
          rw [List.getElem?_set_self hlt] at hown
          cases hown
          refine ⟨j, own, hj, ?_⟩
          rw [foldlM_callsOf_self, hnext]
          exact hfails
        · rw [List.getElem?_set_ne hij] at hown
          exact ⟨i, own', hown, by rwa [callsOf_other hij]⟩

theorem soloWalk_of_walk_ok {chosen : List Chosen} {notes : List Notes}
    (h : walk limits source chosen = .ok notes) :
    List.Forall₂ (fun c own => soloWalk source c.rule limits = .ok own) chosen notes := by
  obtain ⟨hlength, hruns⟩ := foldlM_answer_ok _ h
  rw [List.length_replicate] at hlength
  refine List.forall₂_iff_get.mpr ⟨hlength, fun i hi hi' => ?_⟩
  have hrun := hruns i .empty notes[i] (List.getElem?_replicate_of_lt hi)
    (List.getElem?_eq_getElem hi')
  rwa [callsOf_calls (List.getElem?_eq_getElem hi)] at hrun

theorem exists_soloWalk_of_walk_error {chosen : List Chosen} {e : Failure}
    (h : walk limits source chosen = .error e) :
    ∃ c ∈ chosen, soloWalk source c.rule limits = .error e := by
  obtain ⟨i, own, hown, hfails⟩ := foldlM_answer_error _ h
  obtain ⟨hi, hempty⟩ := List.getElem?_eq_some_iff.mp hown
  rw [List.length_replicate] at hi
  rw [List.getElem_replicate] at hempty
  rw [callsOf_calls (List.getElem?_eq_getElem hi), ← hempty] at hfails
  exact ⟨chosen[i], List.getElem_mem hi, hfails⟩

/-- On one walk, each rule comes to the notes of a walk of its own. -/
theorem walk_of_soloWalk {chosen : List Chosen} {notes : List Notes}
    (h : List.Forall₂ (fun c own => soloWalk source c.rule limits = .ok own) chosen notes) :
    walk limits source chosen = .ok notes := by
  cases hwalk : walk limits source chosen with
  | error e =>
    obtain ⟨c, hc, hfails⟩ := exists_soloWalk_of_walk_error hwalk
    obtain ⟨own, _, hown⟩ := exists_of_forall₂ h.flip hc
    exact nomatch hown.symm.trans hfails
  | ok notes' =>
    have h' := soloWalk_of_walk_ok hwalk
    have hlength : notes'.length = notes.length := h'.length_eq.symm.trans h.length_eq
    refine congrArg _ (List.ext_getElem hlength fun i hi' hi => ?_)
    have hlt : i < chosen.length := h.length_eq ▸ hi
    exact Except.ok.inj ((h'.get hlt hi').symm.trans (h.get hlt hi))

/-- A walk fails if one of its rules does. -/
theorem failsIff_walk {chosen : List Chosen} (bad : Rule → Prop) {e : Failure} (notes : Rule → Notes)
    (h : ∀ c ∈ chosen, FailsIff (soloWalk source c.rule limits) (bad c.rule) e (notes c.rule)) :
    FailsIff (walk limits source chosen) (∃ c ∈ chosen, bad c.rule) e
      (chosen.map fun c => notes c.rule) where
  error := by
    rintro ⟨c, hc, hbad⟩
    cases hwalk : walk limits source chosen with
    | error e' =>
      obtain ⟨c', hc', hfails⟩ := exists_soloWalk_of_walk_error hwalk
      rw [((h c' hc').eq_error_iff.mp hfails).2]
    | ok own =>
      obtain ⟨own', _, hown⟩ := exists_of_forall₂ (soloWalk_of_walk_ok hwalk).flip hc
      exact nomatch hown.symm.trans ((h c hc).error hbad)
  ok hgood := by
    refine walk_of_soloWalk (List.forall₂_map_right_iff.mpr (List.forall₂_same.mpr fun c hc => ?_))
    exact (h c hc).ok fun hbad => hgood ⟨c, hc, hbad⟩

/-- Without limits, findings are handed on in order. -/
theorem settle_unlimited (source : Source) (findings : List Finding) :
    settle .unlimited source findings = .ok (arrange findings) := by
  have hclean : (findings.head?.bind fun f =>
      Limits.unlimited.strayBytes? (f.ruleId.length + 1) source.path) = none := by
    cases findings.head? with
    | none => rfl
    | some f => exact Limits.strayBytes?_unlimited _ _
  rw [settle, hclean]

/-- Once its rules are chosen, a run hands on what they find, or fails as one of them does. -/
theorem lintSource_of_choose {config : Config} {rules : Option (List String)} {chosen : List Chosen}
    (h : choose config rules = .ok chosen) :
    lintSource source config rules limits =
      (walk limits source chosen).mapError .failure >>= fun notes =>
        settle limits source (collect source chosen notes) := by
  rw [lintSource, run, h]
  simp only [bind, Except.bind]
  cases walk limits source chosen <;> rfl

theorem lintSource_of_soloWalk {config : Config} {rules : Option (List String)} {chosen : List Chosen}
    {notes : List Notes} (hchosen : choose config rules = .ok chosen)
    (h : List.Forall₂ (fun c own => soloWalk source c.rule = .ok own) chosen notes) :
    lintSource source config rules = .ok (arrange (collect source chosen notes)) := by
  rw [lintSource_of_choose hchosen, walk_of_soloWalk h]
  exact settle_unlimited source _

end QueryLint.Lint
