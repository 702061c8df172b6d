import Mathlib.Data.List.Chain
import Mathlib.Data.List.Perm.Subperm
import QueryLint.Finding.Edit
import QueryLint.Proofs.Text.Boundary

/-!
# Edits replace their ranges at once

Edits are applied one after the other to bytes that change. Since they come from the last to the
first, the bytes below the bound are still those of the original: what has been made so far is the
original with the ranges chosen so far replaced, all at once.
-/
namespace QueryLint.Finding.Edit

open QueryLint.Text

/-- The bytes from an offset on with the ranges of some edits replaced: the original up to the
first edit, its text, and what comes after its range. -/
def weave (bytes : Bytes) (pos : Nat) : List Edit → Bytes
  | [] => bytes.drop pos
  | e :: es => slice bytes pos e.start.toNat ++ utf8 e.text ++ weave bytes e.stop.toNat es

/-- Where the edits that are chosen begin: the end of the bytes if there is none. -/
def limit (length : Nat) : List Edit → Int
  | [] => length
  | e :: _ => e.start

/-- Chooses an edit if it ends before all that are chosen. -/
def select (length : Nat) (chosen : List Edit) (e : Edit) : List Edit :=
  if e.stop ≤ limit length chosen then e :: chosen else chosen

/-- Whether edits follow each other within so many bytes. -/
structure Follow (length : Nat) (chosen : List Edit) : Prop where
  range : ∀ e ∈ chosen, 0 ≤ e.start ∧ e.start ≤ e.stop
  inside : ∀ e ∈ chosen, e.stop ≤ length
  chain : chosen.IsChain fun a b => a.stop ≤ b.start

variable {bytes : Bytes} {chosen : List Edit} {e : Edit}

theorem limit_bounds {length : Nat} (h : Follow length chosen) :
    0 ≤ limit length chosen ∧ limit length chosen ≤ length := by
  cases chosen with
  | nil => exact ⟨Int.natCast_nonneg _, Int.le_refl _⟩
  | cons c cs =>
    have hrange := h.range c List.mem_cons_self
    have hinside := h.inside c List.mem_cons_self
    simp only [limit]
    omega

theorem le_length_slice {cs : List Edit} (h : Follow bytes.length (e :: cs)) {n : Nat}
    (hn : (n : Int) ≤ limit bytes.length (e :: cs)) : n ≤ (slice bytes 0 e.start.toNat).length := by
  have hle := (limit_bounds h).2
  simp only [limit] at hn hle
  rw [slice_zero, List.length_take]
  omega

/-- Below the chosen edits the bytes are the original ones. -/
theorem take_weave (h : Follow bytes.length chosen) {n : Nat}
    (hn : (n : Int) ≤ limit bytes.length chosen) :
    (weave bytes 0 chosen).take n = bytes.take n := by
  cases chosen with
  | nil => rfl
  | cons c cs =>
    rw [weave, List.append_assoc, List.take_append_of_le_length (le_length_slice h hn), slice_zero,
      List.take_take]
    simp only [limit] at hn
    congr 1
    omega

theorem drop_weave (h : Follow bytes.length chosen) {n : Nat}
    (hn : (n : Int) ≤ limit bytes.length chosen) :
    (weave bytes 0 chosen).drop n = weave bytes n chosen := by
  cases chosen with
  | nil => rfl
  | cons c cs =>
    rw [weave, weave, List.append_assoc, List.drop_append_of_le_length (le_length_slice h hn),
      drop_slice, Nat.zero_add, List.append_assoc]

/-- Applying an edit below the chosen ones is replacing its range as well. -/
theorem splice_weave (h : Follow bytes.length chosen) (he : 0 ≤ e.start ∧ e.start ≤ e.stop)
    (hlimit : e.stop ≤ limit bytes.length chosen) :
    splice (weave bytes 0 chosen) e = weave bytes 0 (e :: chosen) := by
  have hstart : ∀ length, offset length e.start = e.start.toNat := fun _ => if_neg (by omega)
  have hstop : ∀ length, offset length e.stop = e.stop.toNat := fun _ => if_neg (by omega)
  rw [splice, hstart, hstop, take_weave h (by omega), drop_weave h (by omega), weave, slice_zero]

theorem le_length_weave (h : Follow bytes.length chosen) (he : 0 ≤ e.stop)
    (hlimit : e.stop ≤ limit bytes.length chosen) :
    e.stop ≤ (weave bytes 0 chosen).length := by
  have hle := (limit_bounds h).2
  have htake := congrArg List.length (@take_weave bytes chosen h e.stop.toNat (by omega))
  rw [List.length_take, List.length_take] at htake
  omega

/-- What the progress of a run comes to when some edits are chosen out of those seen so far. -/
structure Tracks (bytes : Bytes) (seen chosen : List Edit) (p : Progress) : Prop where
  follow : Follow bytes.length chosen
  bytes_eq : p.bytes = weave bytes 0 chosen
  bound_eq : p.bound = if chosen = [] then (bytes.length : Int) + 1 else limit bytes.length chosen
  sublist : chosen.reverse.Sublist seen
  applied : p.applied = chosen.length
  total : p.applied + p.skipped = seen.length

/-- An edit is applied if and only if it ends before all that are chosen. -/
theorem Tracks.refused_iff {seen : List Edit} {p : Progress} (h : Tracks bytes seen chosen p)
    (he : 0 ≤ e.start ∧ e.start ≤ e.stop) :
    (p.bound < e.stop ∨ p.bytes.length < e.stop) ↔ ¬ e.stop ≤ limit bytes.length chosen := by
  rw [h.bound_eq, h.bytes_eq]
  constructor
  · intro hor hle
    have hlen := le_length_weave h.follow (by omega) hle
    have hlimit := (limit_bounds h.follow).2
    split_ifs at hor <;> omega
  · intro hnot
    cases chosen with
    | nil => simp_all [limit, weave]
    | cons c cs =>
      rw [if_neg (List.cons_ne_nil c cs)]
      omega

theorem Tracks.step {seen : List Edit} {p : Progress} (h : Tracks bytes seen chosen p)
    (he : 0 ≤ e.start ∧ e.start ≤ e.stop) :
    Tracks bytes (seen ++ [e]) (select bytes.length chosen e) (p.step e) := by
  have htotal := Progress.count_step p e
  have hseen := h.total
  unfold select
  by_cases hle : e.stop ≤ limit bytes.length chosen
  · have happly := mt (h.refused_iff he).mp (not_not.mpr hle)
    rw [if_pos hle]
    rw [Progress.step, if_neg happly] at htotal ⊢
    refine ⟨⟨?_, ?_, ?_⟩, ?_, ?_, ?_, ?_, ?_⟩
    · exact List.forall_mem_cons.mpr ⟨he, h.follow.range⟩
    · have hlimit := (limit_bounds h.follow).2
      exact List.forall_mem_cons.mpr ⟨by omega, h.follow.inside⟩
    · cases chosen with
      | nil => exact List.isChain_singleton e
      | cons c cs => exact List.isChain_cons_cons.mpr ⟨hle, h.follow.chain⟩
    · rw [← splice_weave h.follow he hle, ← h.bytes_eq]
    · rw [if_neg (List.cons_ne_nil e chosen)]
      rfl
    · rw [List.reverse_cons]
      exact h.sublist.append (.refl _)
    · rw [List.length_cons, ← h.applied]
    · rw [htotal, hseen, List.length_append, List.length_singleton]
  · rw [if_neg hle]
    rw [Progress.step, if_pos ((h.refused_iff he).mpr hle)] at htotal ⊢
    refine ⟨h.follow, h.bytes_eq, h.bound_eq, ?_, h.applied, ?_⟩
    · exact h.sublist.trans (List.sublist_append_left _ _)
    · rw [htotal, hseen, List.length_append, List.length_singleton]

theorem Tracks.run {seen : List Edit} {p : Progress} (h : Tracks bytes seen chosen p)
    (edits : List Edit) (hedits : ∀ e ∈ edits, 0 ≤ e.start ∧ e.start ≤ e.stop) :
    Tracks bytes (seen ++ edits) (edits.foldl (select bytes.length) chosen)
      (edits.foldl Progress.step p) := by
  induction edits generalizing seen chosen p with
  | nil => simpa using h
  | cons e edits ih =>
    have hstep := h.step (hedits e List.mem_cons_self)
    have hrest := ih hstep fun d hd => hedits d (List.mem_cons_of_mem _ hd)
    rwa [List.append_assoc, List.singleton_append] at hrest

/-- The edits that are applied, in the order of their ranges. -/
def selection (length : Nat) (edits : List Edit) : List Edit :=
  (edits.mergeSort precedes).foldl (select length) []

theorem tracks_applyBytes (bytes : Bytes) {edits : List Edit}
    (hedits : ∀ e ∈ edits, 0 ≤ e.start ∧ e.start ≤ e.stop) :
    Tracks bytes (edits.mergeSort precedes) (selection bytes.length edits)
      (applyBytes bytes edits) := by
  have hstart : Tracks bytes [] [] ⟨bytes, bytes.length + 1, 0, 0⟩ :=
    ⟨⟨by simp, by simp, List.isChain_nil⟩, rfl, rfl, .slnil, rfl, rfl⟩
  exact hstart.run _ fun e he => hedits e ((List.mergeSort_perm edits precedes).subset he)

theorem selection_subperm (bytes : Bytes) {edits : List Edit}
    (hedits : ∀ e ∈ edits, 0 ≤ e.start ∧ e.start ≤ e.stop) :
    (selection bytes.length edits).Subperm edits := by
  have hsub := (tracks_applyBytes bytes hedits).sublist.subperm
  exact (List.reverse_perm _).symm.subperm.trans
    (hsub.trans (List.mergeSort_perm edits precedes).subperm)

theorem Follow.tail {length : Nat} (h : Follow length (e :: chosen)) :
    Follow length chosen ∧ e.stop ≤ limit length chosen := by
  refine ⟨⟨?_, ?_, ?_⟩, ?_⟩
  · exact fun d hd => h.range d (List.mem_cons_of_mem _ hd)
  · exact fun d hd => h.inside d (List.mem_cons_of_mem _ hd)
  · exact h.chain.tail
  · cases chosen with
    | nil => exact h.inside e List.mem_cons_self
    | cons c cs => exact (List.isChain_cons_cons.mp h.chain).1

/-- From a boundary on, with edits at boundaries, what is woven is a text. -/
theorem exists_utf8_weave {text : String} {pos : Nat} (hpos : IsBoundary text pos)
    (h : Follow (byteLength text) chosen)
    (hchosen : ∀ e ∈ chosen, IsBoundary text e.start ∧ IsBoundary text e.stop)
    (hfirst : (pos : Int) ≤ limit (byteLength text) chosen) :
    ∃ s, weave (utf8 text) pos chosen = utf8 s := by
  induction chosen generalizing pos with
  | nil => exact exists_utf8_drop hpos
  | cons c cs ih =>
    obtain ⟨hstart, hstop⟩ := hchosen c List.mem_cons_self
    obtain ⟨hrange, hle⟩ := h.range c List.mem_cons_self
    obtain ⟨htail, hlimit⟩ := h.tail
    simp only [limit] at hfirst
    rw [← Int.toNat_of_nonneg hrange] at hstart
    have hnonneg : 0 ≤ c.stop := by omega
    rw [← Int.toNat_of_nonneg hnonneg] at hstop
    obtain ⟨front, hfront⟩ := exists_utf8_slice hpos hstart (by omega)
    obtain ⟨back, hback⟩ := ih hstop htail
      (fun d hd => hchosen d (List.mem_cons_of_mem _ hd)) (by omega)
    refine ⟨front ++ c.text ++ back, ?_⟩
    rw [weave, hfront, hback, utf8_append, utf8_append]

/-- What comes of applying edits, by those that are applied. -/
theorem applyAll_eq_selection {text : String} {edits : List Edit}
    (hrange : ∀ e ∈ edits, 0 ≤ e.start ∧ e.start ≤ e.stop)
    (hboundary : ∀ e ∈ edits, e.stop ≤ byteLength text →
      IsBoundary text e.start ∧ IsBoundary text e.stop) :
    ∃ outcome, applyAll text edits = .ok outcome ∧
      utf8 outcome.text = weave (utf8 text) 0 (selection (byteLength text) edits) ∧
      outcome.applied = (selection (byteLength text) edits).length ∧
      outcome.applied + outcome.skipped = edits.length := by
  have htracks := tracks_applyBytes (utf8 text) hrange
  have hsub := selection_subperm (utf8 text) hrange
  have hfollow := htracks.follow
  rw [length_utf8] at htracks hsub hfollow
  obtain ⟨s, hs⟩ := exists_utf8_weave (isBoundary_zero text) hfollow
    (fun e he => hboundary e (hsub.subset he) (hfollow.inside e he)) (limit_bounds hfollow).1
  have hok : applyAll text edits =
      .ok ⟨s, (applyBytes (utf8 text) edits).applied, (applyBytes (utf8 text) edits).skipped⟩ := by
    simp only [applyAll, htracks.bytes_eq, hs, decode_utf8]
    rfl
  refine ⟨_, hok, hs.symm, htracks.applied, ?_⟩
  rw [htracks.total, List.length_mergeSort]

/-- Applying edits replaces the ranges of some of them at once: those that are applied follow each
other within the text, and all others are skipped. -/
theorem applyAll_eq_weave {text : String} {edits : List Edit}
    (hrange : ∀ e ∈ edits, 0 ≤ e.start ∧ e.start ≤ e.stop)
    (hboundary : ∀ e ∈ edits, e.stop ≤ byteLength text →
      IsBoundary text e.start ∧ IsBoundary text e.stop) :
    ∃ outcome, ∃ chosen : List Edit, applyAll text edits = .ok outcome ∧ chosen.Subperm edits ∧
      (chosen.IsChain fun a b => a.stop ≤ b.start) ∧ (∀ e ∈ chosen, e.stop ≤ byteLength text) ∧
      utf8 outcome.text = weave (utf8 text) 0 chosen ∧ outcome.applied = chosen.length ∧
      outcome.applied + outcome.skipped = edits.length := by
  have hsub := selection_subperm (utf8 text) hrange
  have hfollow := (tracks_applyBytes (utf8 text) hrange).follow
  rw [length_utf8] at hsub hfollow
  obtain ⟨outcome, hok, htext, happlied, htotal⟩ := applyAll_eq_selection hrange hboundary
  exact ⟨outcome, _, hok, hsub, hfollow.chain, hfollow.inside, htext, happlied, htotal⟩

/-- Two edits of `aéb` that follow each other, and one that reaches into them. -/
def overlapping : List Edit := [⟨0, 3, "x"⟩, ⟨1, 3, "e"⟩, ⟨4, 4, "c"⟩]

/-- Not all edits of `overlapping` can be applied. -/
theorem applyAll_overlapping :
    ∃ outcome, ∃ chosen : List Edit, applyAll "aéb" overlapping = .ok outcome ∧
      chosen.Subperm overlapping ∧ (chosen.IsChain fun a b => a.stop ≤ b.start) ∧
      utf8 outcome.text = weave (utf8 "aéb") 0 chosen ∧ outcome.applied = chosen.length ∧
      outcome.applied + outcome.skipped = 3 := by
  have hboundary : ∀ n ∈ [(0 : Int), 1, 3, 4], IsBoundary "aéb" n := by
    simp only [List.forall_mem_cons]
    exact ⟨⟨"", "aéb", rfl, rfl⟩, ⟨"a", "éb", rfl, rfl⟩, ⟨"aé", "b", rfl, rfl⟩,
      ⟨"aéb", "", rfl, rfl⟩, nofun⟩
  have hoffsets : ∀ e ∈ overlapping,
      e.start ∈ [(0 : Int), 1, 3, 4] ∧ e.stop ∈ [(0 : Int), 1, 3, 4] := by decide
  obtain ⟨outcome, chosen, hok, hsub, hchain, _, htext, happlied, htotal⟩ :=
    @applyAll_eq_weave "aéb" overlapping (by decide)
      fun e he _ => ⟨hboundary _ (hoffsets e he).1, hboundary _ (hoffsets e he).2⟩
  exact ⟨outcome, chosen, hok, hsub, hchain, htext, happlied, htotal⟩

end QueryLint.Finding.Edit
