import Mathlib.Algebra.Ring.Nat
import QueryLint.Proofs.Code.Spans
import QueryLint.Proofs.Finding.Counting
import QueryLint.Proofs.Lint.Rewriting
import QueryLint.Proofs.Lint.Suggest

/-!
# Suggestions take arrows away

The call that is suggested in place of a wait is made of parts of the wait, each of them once, and of
words and signs without a `>`. The arrow of the function inside the wait is not among them. So a text
that suggestions are applied to has fewer of these signs, and is not the same.
-/
namespace QueryLint.Code

open QueryLint.Finding.Edit QueryLint.Text

/-- The byte that arrows end in. -/
def arrowByte : UInt8 := 62

/-- Between the start of an arrow function and its body there is an arrow. -/
def Source.SpellsArrows (source : Source) : Prop :=
  ∀ p ∈ source.tree.places, ∀ body ∈ p.body?, arrowByte ∈ slice source.data p.start body.start

instance (source : Source) : Decidable source.SpellsArrows :=
  inferInstanceAs (Decidable (∀ _ ∈ _, ∀ _ ∈ _, _))

namespace Place

variable {byte : UInt8} {bytes : Bytes}

/-- Places that follow each other in a range hold no more of a byte than the range does. -/
theorem sum_countIn_le {ps : List Place} {start stop : Nat}
    (hpairs : ps.Pairwise fun a b => a.stop ≤ b.start) (hrange : ∀ p ∈ ps, p.start ≤ p.stop)
    (hinside : ∀ p ∈ ps, start ≤ p.start ∧ p.stop ≤ stop) :
    (ps.map fun p => countIn byte bytes p.start p.stop).sum ≤ countIn byte bytes start stop := by
  induction ps generalizing start with
  | nil => exact Nat.zero_le _
  | cons p ps ih =>
    obtain ⟨hfirst, hpairs⟩ := List.pairwise_cons.mp hpairs
    obtain ⟨hp, hrange⟩ := List.forall_mem_cons.mp hrange
    obtain ⟨hin, hinside⟩ := List.forall_mem_cons.mp hinside
    have hrest := ih hpairs hrange fun q hq => ⟨hfirst q hq, (hinside q hq).2⟩
    have hfront := @countIn_add byte bytes p.start p.stop stop hp hin.2
    have hwhole := @countIn_le byte bytes start stop p.start stop hin.1 (hp.trans hin.2) (Nat.le_refl _)
    rw [List.map_cons, List.sum_cons]
    omega

end Place

end QueryLint.Code

namespace QueryLint.Lint

open QueryLint.Code QueryLint.Code.Place QueryLint.Finding.Edit QueryLint.Query QueryLint.Rule
open QueryLint.Rule.PreferFind QueryLint.Text
open QueryLint.Finding (Edit firstEdits)

variable {source : Source}

theorem count_intercalate (ss : List String) :
    (utf8 (", ".intercalate ss)).count arrowByte =
      (ss.map fun s => (utf8 s).count arrowByte).sum := by
  have hcomma : (utf8 ", ").count arrowByte = 0 := by decide
  induction ss with
  | nil => rfl
  | cons s ss ih =>
    cases ss with
    | nil => simp
    | cons t ss =>
      rw [String.intercalate_cons_cons, utf8_append, utf8_append, List.count_append,
        List.count_append, ih, hcomma, Nat.add_zero, List.map_cons (l := t :: ss), List.sum_cons]

/-- What a call by a name holds beside the name of its object and its arguments is free of arrows. -/
theorem count_callText {caller : Option String} {name : String} (arguments : List String)
    (hname : (utf8 name).count arrowByte = 0) :
    (utf8 (callText caller name arguments)).count arrowByte =
      (caller.elim 0 fun object => (utf8 object).count arrowByte) +
        (arguments.map fun s => (utf8 s).count arrowByte).sum := by
  have hopen : (utf8 "(").count arrowByte = 0 := by decide
  have hclose : (utf8 ")").count arrowByte = 0 := by decide
  have hdot : (utf8 ".").count arrowByte = 0 := by decide
  cases caller with
  | none =>
    simp only [callText, utf8_append, List.count_append, hname, hopen, hclose, count_intercalate,
      Option.elim_none]
    rfl
  | some object =>
    simp only [callText, utf8_append, List.count_append, hname, hopen, hclose, hdot,
      count_intercalate, Option.elim_some, Nat.add_zero]

theorem count_waitingName : ∀ v ∈ waitingVariants, ∀ a ∈ accessors,
    (utf8 (v.2 ++ a)).count arrowByte = 0 := by
  decide

section Laid

variable (laid : source.tree.Laid source.text)

include laid

theorem count_textOf {p : Place} (hp : p ∈ source.tree.places) :
    (utf8 (source.textOf p)).count arrowByte = countIn arrowByte source.data p.start p.stop := by
  rw [Source.utf8_textOf laid.spans hp, countIn]

/-- The arguments of a call lie in its list of arguments. -/
theorem count_arguments_le {q : Place} (hq : q ∈ source.tree.places) {list : Place}
    (hlist : q.childAs .arguments = some list) :
    (q.callArguments.map fun c => (utf8 (source.textOf c)).count arrowByte).sum ≤
      countIn arrowByte source.data list.start list.stop := by
  have hlq := mem_places_of_mem_children hq (mem_children_of_childAs hlist)
  have hparts : ∀ c ∈ list.parts, c ∈ source.tree.places := fun c hc =>
    mem_places_of_mem_children hlq (mem_children_of_mem_parts hc)
  have hsum : (list.parts.map fun c => (utf8 (source.textOf c)).count arrowByte).sum ≤
      countIn arrowByte source.data list.start list.stop := by
    rw [List.map_congr_left fun c hc => count_textOf laid (hparts c hc)]
    refine sum_countIn_le ?_ (fun c hc => laid.spans.range _ (hparts c hc)) fun c hc =>
      (nested_of_laid laid).inside list hlq c (mem_children_of_mem_parts hc)
    exact ((nested_of_laid laid).ordered list hlq).sublist
      (List.filter_sublist.trans List.filter_sublist)
  simp only [callArguments, hlist]
  split_ifs
  · exact hsum
  · exact Nat.zero_le _
  · exact Nat.zero_le _

/-- The name of the object of a query lies in what the query calls. -/
theorem count_caller_le {q : Place} (hq : q ∈ source.tree.places) {method : String}
    {caller : Option String} (hcalls : CallsAtOnce source q method caller) :
    ∃ f ∈ q.children, f.label.role = some .function ∧
      (caller.elim 0 fun object => (utf8 object).count arrowByte) ≤
        countIn arrowByte source.data f.start f.stop := by
  cases hcalls with
  | bare hcallee =>
    obtain ⟨f, hf, hrole, _⟩ := exists_function_of_callee? hcallee
    exact ⟨f, hf, hrole, Nat.zero_le _⟩
  | @member callee object caller hcallee hobject hcaller =>
    obtain ⟨f, hf, hrole, hunwrap⟩ := exists_function_of_callee? hcallee
    have hfq := mem_places_of_mem_children hq hf
    have hbelow : object ∈ f.preorder :=
      preorder_trans (mem_preorder_of_unwrap hunwrap) (mem_preorder_of_object? hobject)
    have hplace := preorder_trans hfq hbelow
    have hbounds := within_of_mem_preorder (nested_of_laid laid) hfq hbelow
    refine ⟨f, hf, hrole, ?_⟩
    rw [Option.elim_some, ← (nameOf?_eq_some_iff.mp hcaller).2, count_textOf laid hplace]
    exact countIn_le hbounds.1 (laid.spans.range _ hplace) hbounds.2

/-- The call that is suggested holds no more arrows than the query it is made of. -/
theorem count_callText_le {q : Place} (hq : q ∈ source.tree.places) {method name : String}
    {caller : Option String} (hcalls : CallsAtOnce source q method caller)
    (hname : (utf8 name).count arrowByte = 0) :
    (utf8 (callText caller name (q.callArguments.map source.textOf))).count arrowByte ≤
      countIn arrowByte source.data q.start q.stop := by
  have hnested := nested_of_laid laid
  obtain ⟨f, hf, hrole, hcaller⟩ := count_caller_le laid hq hcalls
  have hfq := hnested.inside q hq f hf
  have hfrange := laid.spans.range _ (mem_places_of_mem_children hq hf)
  rw [count_callText _ hname, List.map_map]
  cases hlist : q.childAs .arguments with
  | none =>
    have hnone : q.callArguments = [] := by simp only [callArguments, hlist, ite_self]
    rw [hnone, List.map_nil, List.sum_nil, Nat.add_zero]
    exact hcaller.trans (countIn_le hfq.1 hfrange hfq.2)
  | some list =>
    have hl := mem_children_of_childAs hlist
    have hlq := hnested.inside q hq list hl
    have hlrange := laid.spans.range _ (mem_places_of_mem_children hq hl)
    have hne : f ≠ list := by
      rintro rfl
      have hrole' : f.label.role = some .arguments := by simpa using List.find?_some hlist
      rw [hrole] at hrole'
      cases hrole'
    have hapart := apart_of_mem_children hnested hq hf hl hne
    have harguments := count_arguments_le laid hq hlist
    have hboth := @countIn_add_le arrowByte source.data _ _ _ _ q.start q.stop hapart hfrange hlrange
      hfq hlq
    simp only [Function.comp_def]
    omega

/-- The suggestion for a wait takes its arrow away. -/
theorem lowers_waitEdit (spells : source.SpellsArrows) {w : Place} (hw : w ∈ waits source) :
    (waitEdit source w).Lowers arrowByte source.data := by
  have hplace := (mem_waits_iff.mp hw).1
  obtain ⟨r, hr⟩ := Option.isSome_iff_exists.mp (List.mem_filter.mp hw).2
  obtain ⟨v, hv, a, ha, q, caller, hwait, _, hreport⟩ := exists_isWait_of_reportAt? hr
  have hedit : waitEdit source w =
      ⟨w.start, w.stop, callText caller (v.2 ++ a) (q.callArguments.map source.textOf)⟩ := by
    have hedits := suggestions_reportAt? hr
    rw [hreport] at hedits
    exact (List.singleton_inj.mp hedits).symm
  obtain ⟨argument, callback, body, harguments, hcallback, harrow, _, hbody, hq, _⟩ :=
    hwait.waits.callback
  have hcallbackBelow : callback ∈ w.preorder := by
    obtain ⟨_, list, hlist, _, hargument⟩ :=
      exists_of_mem_callArguments (harguments ▸ List.mem_singleton_self argument)
    exact preorder_trans (mem_preorder_of_mem_children hlist)
      (preorder_trans (mem_preorder_of_mem_children hargument) (mem_preorder_of_unwrap hcallback))
  have hcallbackPlace := preorder_trans hplace hcallbackBelow
  have hbodyChild : body ∈ callback.children := by
    rw [Place.body?, if_pos harrow] at hbody
    exact mem_children_of_childAs hbody
  have hnested := nested_of_laid laid
  have hqBelow : q ∈ callback.preorder :=
    preorder_trans (mem_preorder_of_mem_children hbodyChild) (mem_preorder_of_unwrap hq)
  have hqPlace := preorder_trans hcallbackPlace hqBelow
  have hbounds := within_of_mem_preorder hnested hplace hcallbackBelow
  have hbodyIn := hnested.inside callback hcallbackPlace body hbodyChild
  have hqIn := within_of_mem_preorder hnested
    (mem_places_of_mem_children hcallbackPlace hbodyChild) (mem_preorder_of_unwrap hq)
  have hqRange := laid.spans.range _ hqPlace
  -- the arrow comes before the body, and the query is in the body
  have harrowIn : 0 < countIn arrowByte source.data callback.start body.start :=
    List.count_pos_iff.mpr (spells callback hcallbackPlace body hbody)
  have hcall := count_callText_le laid hqPlace hwait.calls (count_waitingName v hv a ha)
  have hboth := @countIn_add_le arrowByte source.data _ _ _ _ w.start w.stop (.inl hqIn.1)
    hbodyIn.1 hqRange ⟨hbounds.1, by omega⟩ ⟨by omega, by omega⟩
  simp only [hedit, Lowers, Int.toNat_natCast]
  omega

/-- A text that is changed by the suggestions of the waits in it is no longer the same. -/
theorem text_ne_of_applied (spells : source.SpellsArrows) {outcome : Edit.Outcome}
    (h : Edit.applyAll source.text (firstEdits (arrange (defaultFindings source))) = .ok outcome)
    (happlied : outcome.applied ≠ 0) : outcome.text ≠ source.text := by
  have hperm : (firstEdits (arrange (defaultFindings source))).Perm
      ((waits source).map (waitEdit source)) := by
    rw [firstEdits_eq fun f hf => @length_suggestions_le source f hf]
    exact suggestedEdits_arrange_default source
  have hrange : ∀ e ∈ firstEdits (arrange (defaultFindings source)),
      0 ≤ e.start ∧ e.start ≤ e.stop := by
    intro e he
    have := (nested_waitEdits laid).1 e (hperm.subset he)
    omega
  have hlowers : ∀ e ∈ firstEdits (arrange (defaultFindings source)),
      e.Lowers arrowByte (utf8 source.text) := by
    intro e he
    obtain ⟨w, hw, rfl⟩ := List.mem_map.mp (hperm.subset he)
    exact lowers_waitEdit laid spells hw
  exact text_ne_of_lowers hrange (fun e he _ => boundary_of_mem_waitEdits laid (hperm.subset he))
    hlowers h happlied

end Laid

end QueryLint.Lint
