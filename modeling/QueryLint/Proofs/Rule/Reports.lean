import QueryLint.Proofs.Code.WellFormed
import QueryLint.Proofs.Related
import QueryLint.Rule.PreferFind

/-!
# Reports are whole

To report a violation, messages are looked up and edits are made, one after the other, and each of
these items may fail. The first item that fails tells how the report fails, and then nothing is kept. If
no item fails there is one report more, with the messages and the edits of all items. So after any
sequence of reports, what is kept are the reports of the violations without a faulty item, in order.

`Yields` relates a computation to the items that it goes through. The items of a computation that is
followed by another one are those of both, so what is known of the single items carries over to reports.
-/
namespace QueryLint.Rule

open QueryLint.Code QueryLint.Data QueryLint.Finding QueryLint.Text

/-! ### What may fail -/

/-- Whether the bytes from `start` up to `stop` are a range of a source. -/
def IsRangeOf (source : Source) (start stop : Int) : Prop :=
  0 ≤ start ∧ start ≤ stop ∧ stop ≤ byteLength source.text

instance (source : Source) (start stop : Int) : Decidable (IsRangeOf source start stop) :=
  inferInstanceAs (Decidable (_ ∧ _))

/-- Whether a replacement can be made: that of a node always can. -/
def Replacement.InBounds (source : Source) : Replacement → Prop
  | .node _ _ => True
  | .range start stop _ => IsRangeOf source start stop

instance (source : Source) : DecidablePred (Replacement.InBounds source)
  | .node _ _ => inferInstanceAs (Decidable True)
  | .range start stop _ => inferInstanceAs (Decidable (IsRangeOf source start stop))

/-- The edit that a replacement is about. -/
def Replacement.wanted : Replacement → Edit
  | .node place text => ⟨place.start, place.stop, text⟩
  | .range start stop text => ⟨start, stop, text⟩

/-- Something that a report needs: the message of an id, or the edit of a replacement. -/
inductive Item where
  | message (messageId : String)
  | edit (replacement : Replacement)

/-- An item cannot be had, and this is why. -/
inductive Item.Fails (info : Info) (source : Source) : Item → ReportError → Prop
  | message {messageId : String} (h : messageId ∉ info.messages.map Prod.fst) :
      Fails info source (.message messageId) (.noMessage info.id messageId)
  | edit {start stop : Int} {text : String} (h : ¬ IsRangeOf source start stop) :
      Fails info source (.edit (.range start stop text)) (.editOutOfBounds start stop)

/-- Of some items none fails. -/
def Sound (info : Info) (source : Source) (items : List Item) : Prop :=
  ∀ item ∈ items, ∀ e, ¬ item.Fails info source e

/-- Of some items the first that fails does so with an error. -/
def FailsFirst (info : Info) (source : Source) (items : List Item) (e : ReportError) : Prop :=
  ∃ before item after, items = before ++ item :: after ∧ Sound info source before ∧
    item.Fails info source e

/-- What a report of a violation needs, in the order in which it is asked for. -/
def Violation.items (v : Violation) : List Item :=
  v.proposals.flatMap (fun p => [.message p.messageId, .edit p.replacement]) ++ [.message v.messageId]

/-- Whether a violation names a message that there is not, or a range outside of the source. -/
def Violation.Faulty (info : Info) (source : Source) (v : Violation) : Prop :=
  (v.messageId ∉ info.messages.map Prod.fst ∨
    ∃ p ∈ v.proposals, p.messageId ∉ info.messages.map Prod.fst) ∨
  ∃ p ∈ v.proposals, ¬ p.replacement.InBounds source

instance (info : Info) (source : Source) : DecidablePred (Violation.Faulty info source) := fun _ =>
  inferInstanceAs (Decidable (_ ∨ _))

variable {info : Info} {source : Source} {items items' : List Item} {e : ReportError}

theorem exists_fails_message_iff {messageId : String} :
    (∃ e, (Item.message messageId).Fails info source e) ↔
      messageId ∉ info.messages.map Prod.fst :=
  ⟨fun ⟨_, .message h⟩ => h, fun h => ⟨_, .message h⟩⟩

theorem exists_fails_edit_iff {replacement : Replacement} :
    (∃ e, (Item.edit replacement).Fails info source e) ↔ ¬ replacement.InBounds source := by
  constructor
  · rintro ⟨_, h⟩
    cases h with
    | edit h => exact h
  · intro h
    cases replacement with
    | node place text => exact absurd trivial h
    | range start stop text => exact ⟨_, .edit h⟩

theorem FailsFirst.not_sound (h : FailsFirst info source items e) : ¬ Sound info source items := by
  obtain ⟨before, item, after, rfl, _, hfails⟩ := h
  exact fun sound => sound item (by simp) e hfails

theorem FailsFirst.append_right (h : FailsFirst info source items e) (items' : List Item) :
    FailsFirst info source (items ++ items') e := by
  obtain ⟨before, item, after, rfl, hbefore, hfails⟩ := h
  exact ⟨before, item, after ++ items', by simp, hbefore, hfails⟩

theorem Sound.append (h : Sound info source items) (h' : Sound info source items') :
    Sound info source (items ++ items') := fun item hitem =>
  (List.mem_append.mp hitem).elim (h item) (h' item)

theorem Sound.failsFirst_append (h : Sound info source items)
    (h' : FailsFirst info source items' e) : FailsFirst info source (items ++ items') e := by
  obtain ⟨before, item, after, rfl, hbefore, hfails⟩ := h'
  exact ⟨items ++ before, item, after, by simp, h.append hbefore, hfails⟩

theorem not_sound_items_iff {v : Violation} :
    ¬ Sound info source v.items ↔ v.Faulty info source := by
  have hsound : ¬ Sound info source v.items ↔ ∃ item ∈ v.items, ∃ e, item.Fails info source e := by
    simp [Sound]
  have hitems : ∀ item, item ∈ v.items ↔
      (∃ p ∈ v.proposals, item = .message p.messageId ∨ item = .edit p.replacement) ∨
        item = .message v.messageId := by
    simp [Violation.items]
  rw [hsound, Violation.Faulty]
  constructor
  · rintro ⟨item, hitem, hfails⟩
    rcases (hitems item).mp hitem with ⟨p, hp, rfl | rfl⟩ | rfl
    · exact .inl (.inr ⟨p, hp, exists_fails_message_iff.mp hfails⟩)
    · exact .inr ⟨p, hp, exists_fails_edit_iff.mp hfails⟩
    · exact .inl (.inl (exists_fails_message_iff.mp hfails))
  · rintro ((h | ⟨p, hp, h⟩) | ⟨p, hp, h⟩)
    · exact ⟨_, (hitems _).mpr (.inr rfl), exists_fails_message_iff.mpr h⟩
    · exact ⟨_, (hitems _).mpr (.inl ⟨p, hp, .inl rfl⟩), exists_fails_message_iff.mpr h⟩
    · exact ⟨_, (hitems _).mpr (.inl ⟨p, hp, .inr rfl⟩), exists_fails_edit_iff.mpr h⟩

/-! ### What is reported -/

/-- `message` is the rule's message of an id, filled with data. -/
def IsMessage (info : Info) (messageId : String) (data : Members) (message : String) : Prop :=
  ∃ template, info.messages.lookup messageId = some template ∧ message = fillMessage template data

/-- `s` is the suggestion that a proposal for a violation with some data makes. -/
structure IsSuggestionOf (info : Info) (data : Members) (p : Proposal) (s : Suggestion) : Prop where
  messageId : s.messageId = p.messageId
  message : IsMessage info p.messageId (if p.data.isEmpty then data else p.data) s.message
  edit : s.edit = p.replacement.wanted

/-- `r` reports a violation, with all its proposals. -/
structure IsReportOf (info : Info) (v : Violation) (r : Report) : Prop where
  ruleId : r.ruleId = info.id
  place : r.place = v.place
  messageId : r.messageId = v.messageId
  message : IsMessage info v.messageId v.data r.message
  data : r.data = v.data
  suggestions : List.Forall₂ (IsSuggestionOf info v.data) v.proposals r.suggestions

/-- A computation goes through some items: it fails with the first that does, and else its result is as
wanted. -/
def Yields {α : Type} (info : Info) (source : Source) (items : List Item) (wanted : α → Prop) :
    Except ReportError α → Prop
  | .ok a => Sound info source items ∧ wanted a
  | .error e => FailsFirst info source items e

section Yields

variable {α β : Type} {P : α → Prop} {Q : β → Prop}

theorem yields_pure {a : α} (h : P a) : Yields info source [] P (pure a) :=
  ⟨nofun, h⟩

theorem Yields.bind {x : Except ReportError α} {f : α → Except ReportError β}
    (hx : Yields info source items P x) (hf : ∀ a, P a → Yields info source items' Q (f a)) :
    Yields info source (items ++ items') Q (x >>= f) := by
  cases x with
  | error e => exact hx.append_right items'
  | ok a =>
    have hfa := hf a hx.2
    change Yields info source (items ++ items') Q (f a)
    cases h : f a with
    | error e =>
      rw [h] at hfa
      exact hx.1.failsFirst_append hfa
    | ok b =>
      rw [h] at hfa
      exact ⟨hx.1.append hfa.1, hfa.2⟩

/-- A list of computations goes through the items of all of them. -/
theorem yields_mapM {R : α → β → Prop} {itemsOf : α → List Item} {f : α → Except ReportError β}
    (h : ∀ a, Yields info source (itemsOf a) (R a) (f a)) (as : List α) :
    Yields info source (as.flatMap itemsOf) (List.Forall₂ R as) (as.mapM f) := by
  induction as with
  | nil => exact yields_pure .nil
  | cons a as ih =>
    rw [List.mapM_cons, List.flatMap_cons]
    refine (h a).bind fun b hb => ?_
    rw [← List.append_nil (as.flatMap itemsOf)]
    exact ih.bind fun bs hbs => yields_pure (.cons hb hbs)

end Yields

theorem yields_messageOf (messageId : String) (data : Members) :
    Yields info source [.message messageId] (IsMessage info messageId data)
      (messageOf info messageId data) := by
  rw [messageOf]
  cases h : info.messages.lookup messageId with
  | none => exact ⟨[], _, [], rfl, nofun, .message (lookup_eq_none_iff_notMem.mp h)⟩
  | some template =>
    refine ⟨?_, template, h, rfl⟩
    rintro item hitem e hfails
    cases List.mem_singleton.mp hitem
    have hnone := lookup_eq_none_iff_notMem.mpr (exists_fails_message_iff.mp ⟨e, hfails⟩)
    rw [h] at hnone
    cases hnone

theorem yields_edit (replacement : Replacement) :
    Yields info source [.edit replacement] (· = replacement.wanted) (replacement.edit source) := by
  have hsound : replacement.InBounds source → Sound info source [.edit replacement] := by
    rintro hin item hitem e hfails
    cases List.mem_singleton.mp hitem
    exact exists_fails_edit_iff.mp ⟨e, hfails⟩ hin
  cases replacement with
  | node place text => exact ⟨hsound trivial, rfl⟩
  | range start stop text =>
    rw [Replacement.edit]
    split_ifs with h
    · exact ⟨hsound h, rfl⟩
    · exact ⟨[], _, [], rfl, nofun, .edit h⟩

theorem yields_suggestionOf (data : Members) (p : Proposal) :
    Yields info source [.message p.messageId, .edit p.replacement] (IsSuggestionOf info data p)
      (suggestionOf info source data p) :=
  (yields_messageOf _ _).bind fun _ hmessage =>
    (yields_edit _).bind fun _ hedit => yields_pure ⟨rfl, hmessage, hedit⟩

theorem yields_report (v : Violation) :
    Yields info source v.items (IsReportOf info v) (report info source v) :=
  (yields_mapM (yields_suggestionOf v.data) v.proposals).bind fun _ hsuggestions =>
    (yields_messageOf _ _).bind fun _ hmessage =>
      yields_pure ⟨rfl, rfl, rfl, hmessage, rfl, hsuggestions⟩

/-! ### Reports one after the other -/

/-- Reports violations one after the other, whatever becomes of those before, and tells how each went. -/
def noteAll (info : Info) (source : Source) (vs : List Violation) :
    StateM (List Report) (List (Except ReportError Unit)) :=
  vs.mapM fun v => (note info source v).run

/-- Whether the nodes that a violation wants replaced are nodes of a source. -/
def Violation.InTree (source : Source) (v : Violation) : Prop :=
  ∀ p ∈ v.proposals, ∀ place text, p.replacement = .node place text → place ∈ source.tree.places

/-- How the report of a violation may go. -/
inductive Goes (info : Info) (source : Source) (v : Violation) : Except ReportError Unit → Prop
  | made (h : ¬ v.Faulty info source) : Goes info source v (.ok ())
  | failed {e : ReportError} (h : v.Faulty info source) (first : FailsFirst info source v.items e) :
      Goes info source v (.error e)

section Runs

variable {v : Violation} {vs : List Violation}

theorem run_note_cases (v : Violation) (kept : List Report) :
    (∃ e, FailsFirst info source v.items e ∧
      (note info source v).run.run kept = (.error e, kept)) ∨
    ∃ r, Sound info source v.items ∧ IsReportOf info v r ∧
      (note info source v).run.run kept = (.ok (), kept ++ [r]) := by
  have hyields := @yields_report info source v
  rw [run_note]
  cases hreport : report info source v with
  | error e =>
    rw [hreport] at hyields
    exact .inl ⟨e, hyields, rfl⟩
  | ok r =>
    rw [hreport] at hyields
    exact .inr ⟨r, hyields.1, hyields.2, rfl⟩

theorem run_note_of_faulty (h : v.Faulty info source) (kept : List Report) :
    ∃ e, FailsFirst info source v.items e ∧
      (note info source v).run.run kept = (.error e, kept) := by
  rcases @run_note_cases info source v kept with hfails | ⟨_, hsound, _⟩
  · exact hfails
  · exact absurd hsound (not_sound_items_iff.mpr h)

theorem run_note_of_not_faulty (h : ¬ v.Faulty info source) (kept : List Report) :
    ∃ r, IsReportOf info v r ∧ (note info source v).run.run kept = (.ok (), kept ++ [r]) := by
  rcases @run_note_cases info source v kept with ⟨e, hfirst, _⟩ | ⟨r, _, hmade⟩
  · exact absurd (not_sound_items_iff.mp hfirst.not_sound) h
  · exact ⟨r, hmade⟩

theorem run_noteAll_cons (v : Violation) (vs : List Violation) (kept : List Report) :
    (noteAll info source (v :: vs)).run kept =
      let first := (note info source v).run.run kept
      let others := (noteAll info source vs).run first.2
      (first.1 :: others.1, others.2) := by
  rw [noteAll, List.mapM_cons]
  rfl

/-- What a run of reports comes to. The induction is on the violations; the reports that are there
already may be any. -/
theorem exists_run_noteAll (vs : List Violation) (kept : List Report) :
    ∃ outcomes reports, (noteAll info source vs).run kept = (outcomes, kept ++ reports) ∧
      List.Forall₂ (Goes info source) vs outcomes ∧
      List.Forall₂ (IsReportOf info) (vs.filter fun v => ¬ v.Faulty info source) reports := by
  induction vs generalizing kept with
  | nil => exact ⟨[], [], by rw [List.append_nil]; rfl, .nil, .nil⟩
  | cons v vs ih =>
    rw [run_noteAll_cons]
    by_cases h : v.Faulty info source
    · obtain ⟨e, hfirst, hrun⟩ := run_note_of_faulty h kept
      obtain ⟨outcomes, reports, hruns, hgoes, hreports⟩ := ih kept
      refine ⟨.error e :: outcomes, reports, ?_, .cons (.failed h hfirst) hgoes, ?_⟩
      · simp only [hrun, hruns]
      · rwa [List.filter_cons_of_neg (by simpa using h)]
    · obtain ⟨r, hreport, hrun⟩ := run_note_of_not_faulty h kept
      obtain ⟨outcomes, reports, hruns, hgoes, hreports⟩ := ih (kept ++ [r])
      refine ⟨.ok () :: outcomes, r :: reports, ?_, .cons (.made h) hgoes, ?_⟩
      · simp only [hrun, hruns, List.append_assoc, List.singleton_append]
      · rw [List.filter_cons_of_pos (by simpa using h)]
        exact .cons hreport hreports

/-- The edits of a report lie in the source, if the nodes of the source do. -/
theorem IsReportOf.isRangeOf {r : Report}
    (range : ∀ p ∈ source.tree.places, p.start ≤ p.stop ∧ p.stop ≤ byteLength source.text)
    (inTree : v.InTree source) (hv : ¬ v.Faulty info source) (h : IsReportOf info v r)
    {s : Suggestion} (hs : s ∈ r.suggestions) : IsRangeOf source s.edit.start s.edit.stop := by
  obtain ⟨p, hp, hsuggestion⟩ := exists_of_forall₂ h.suggestions hs
  have hbounds : p.replacement.InBounds source :=
    by_contra fun hbounds => hv (.inr ⟨p, hp, hbounds⟩)
  rw [hsuggestion.edit]
  cases hreplacement : p.replacement with
  | node place text =>
    obtain ⟨hstart, hstop⟩ := range place (inTree p hp place text hreplacement)
    exact ⟨Int.natCast_nonneg _, Int.ofNat_le.mpr hstart, Int.ofNat_le.mpr hstop⟩
  | range start stop text =>
    rw [hreplacement] at hbounds
    exact hbounds

end Runs

/-- A report is made whole or not at all, whatever was reported before: it fails if the violation is faulty,
with the error of the first item that fails, and then keeps nothing; else it keeps one report. So
after a run what is kept are the reports of the violations that are not faulty, in order, and all their
edits lie in the source. -/
theorem noteAll_whole (info : Info) (source : Source)
    (range : ∀ p ∈ source.tree.places, p.start ≤ p.stop ∧ p.stop ≤ byteLength source.text)
    (vs : List Violation) (inTree : ∀ v ∈ vs, v.InTree source) (kept : List Report) :
    (∀ (v : Violation) (before : List Report),
      (v.Faulty info source → ∃ e, FailsFirst info source v.items e ∧
        (note info source v).run.run before = (.error e, before)) ∧
      (¬ v.Faulty info source → ∃ r, IsReportOf info v r ∧
        (note info source v).run.run before = (.ok (), before ++ [r]))) ∧
    ∃ outcomes reports,
      (noteAll info source vs).run kept = (outcomes, kept ++ reports) ∧
      List.Forall₂ (Goes info source) vs outcomes ∧
      List.Forall₂ (IsReportOf info) (vs.filter fun v => ¬ v.Faulty info source) reports ∧
      ∀ r ∈ reports, ∀ s ∈ r.suggestions, IsRangeOf source s.edit.start s.edit.stop := by
  refine ⟨fun v before => ⟨fun h => run_note_of_faulty h before,
    fun h => run_note_of_not_faulty h before⟩, ?_⟩
  obtain ⟨outcomes, reports, hrun, hgoes, hreports⟩ := @exists_run_noteAll info source vs kept
  refine ⟨outcomes, reports, hrun, hgoes, hreports, fun r hr s hs => ?_⟩
  obtain ⟨v, hv, hreport⟩ := exists_of_forall₂ hreports hr
  obtain ⟨hmem, hfaulty⟩ := List.mem_filter.mp hv
  exact hreport.isRangeOf range (inTree v hmem) (of_decide_eq_true hfaulty) hs

/-- The call `f()` and its tree. -/
def loneCall : Source where
  path := "a.js"
  text := "f()"
  language := .javascript
  tree := .named "program" 0 3 none [
    .named "call_expression" 0 3 none [
      .named "identifier" 0 1 (some .function) [],
      .named "arguments" 1 3 (some .arguments) []]]

/-- Violations of which the first and the last can be reported. In the second an edit fails before its
message would, in the third a message before its edit would. -/
def mixedViolations : List Violation :=
  [⟨loneCall.root, PreferFind.messageId, [],
      [⟨PreferFind.messageId, .node loneCall.root "g()", []⟩,
        ⟨PreferFind.messageId, .range 3 3 ";", []⟩]⟩,
    ⟨loneCall.root, "gone", [],
      [⟨PreferFind.messageId, .range 0 1 "g", []⟩, ⟨PreferFind.messageId, .range 1 4 "", []⟩]⟩,
    ⟨loneCall.root, PreferFind.messageId, [], [⟨"gone", .range 2 1 "", []⟩]⟩,
    ⟨loneCall.root, PreferFind.messageId, [], []⟩]

theorem noteAll_whole_mixed :
    (∀ p ∈ loneCall.tree.places, p.start ≤ p.stop ∧ p.stop ≤ byteLength loneCall.text) ∧
      (∀ v ∈ mixedViolations, v.InTree loneCall) ∧
      ∃ first last,
        (noteAll PreferFind.info loneCall mixedViolations).run [] =
          ([.ok (), .error (.editOutOfBounds 1 4),
            .error (.noMessage "prefer-find-by" "gone"), .ok ()], [first, last]) ∧
        first.suggestions.length = 2 ∧ last.suggestions = [] := by
  have hrange : ∀ p ∈ loneCall.tree.places, p.start ≤ p.stop ∧ p.stop ≤ byteLength loneCall.text := by
    decide
  have hinTree : ∀ v ∈ mixedViolations, v.InTree loneCall := by
    simp only [mixedViolations, Violation.InTree, List.forall_mem_cons, List.not_mem_nil,
      Replacement.node.injEq, reduceCtorEq, false_implies, implies_true, and_true]
    rintro _ _ ⟨rfl, _⟩
    exact Place.mem_preorder_self _
  obtain ⟨_, outcomes, reports, hrun, _, hreports, _⟩ :=
    noteAll_whole PreferFind.info loneCall hrange mixedViolations hinTree []
  have houtcomes : ((noteAll PreferFind.info loneCall mixedViolations).run []).1 =
      [.ok (), .error (.editOutOfBounds 1 4), .error (.noMessage "prefer-find-by" "gone"), .ok ()] := rfl
  have hkept : mixedViolations.filter (fun v => ¬ v.Faulty PreferFind.info loneCall) =
      [mixedViolations[0], mixedViolations[3]] := rfl
  rw [hkept] at hreports
  rw [hrun] at houtcomes
  cases houtcomes
  cases hreports with
  | cons hfirst hothers =>
    cases hothers with
    | cons hlast hnil =>
      cases hnil
      exact ⟨hrange, hinTree, _, _, hrun, hfirst.suggestions.length_eq.symm,
        List.forall₂_nil_left_iff.mp hlast.suggestions⟩

end QueryLint.Rule
