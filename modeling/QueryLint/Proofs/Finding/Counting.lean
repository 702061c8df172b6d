import Mathlib.Data.List.Count
import QueryLint.Proofs.Finding.Replacement

/-!
# Edits that take a byte away

An edit whose text holds a byte less often than the range it replaces takes the byte away. If all edits
do, a text that some of them are applied to is no longer the same.
-/
namespace QueryLint.Finding.Edit

open QueryLint.Text

/-- How often a byte comes between two offsets. -/
def countIn (byte : UInt8) (bytes : Bytes) (start stop : Nat) : Nat :=
  (slice bytes start stop).count byte

/-- An edit that leaves fewer occurrences of a byte than there were in its range. -/
def Lowers (byte : UInt8) (bytes : Bytes) (e : Edit) : Prop :=
  (utf8 e.text).count byte < countIn byte bytes e.start.toNat e.stop.toNat

variable {byte : UInt8} {bytes : Bytes}

theorem countIn_add {start middle stop : Nat} (h₁ : start ≤ middle) (h₂ : middle ≤ stop) :
    countIn byte bytes start middle + countIn byte bytes middle stop =
      countIn byte bytes start stop := by
  rw [countIn, countIn, countIn, ← slice_append bytes h₁ h₂, List.count_append]

theorem countIn_le {start stop start' stop' : Nat} (h₁ : start ≤ start') (h₂ : start' ≤ stop')
    (h₃ : stop' ≤ stop) : countIn byte bytes start' stop' ≤ countIn byte bytes start stop := by
  have hfront := @countIn_add byte bytes _ _ _ h₁ (h₂.trans h₃)
  have hback := @countIn_add byte bytes _ _ _ h₂ h₃
  omega

/-- Two ranges that are apart hold no more together than a range around both. -/
theorem countIn_add_le {start stop start' stop' first last : Nat}
    (hapart : stop ≤ start' ∨ stop' ≤ start) (h : start ≤ stop) (h' : start' ≤ stop')
    (hin : first ≤ start ∧ stop ≤ last) (hin' : first ≤ start' ∧ stop' ≤ last) :
    countIn byte bytes start stop + countIn byte bytes start' stop' ≤
      countIn byte bytes first last := by
  rcases hapart with hafter | hbefore
  · have hsplit := @countIn_add byte bytes _ _ _ (hin.1.trans h) (hafter.trans (h'.trans hin'.2))
    have hfront := @countIn_le byte bytes _ _ _ _ hin.1 h (Nat.le_refl stop)
    have hback := @countIn_le byte bytes _ _ _ _ hafter h' hin'.2
    omega
  · have hsplit := @countIn_add byte bytes _ _ _ (hin'.1.trans h') (hbefore.trans (h.trans hin.2))
    have hfront := @countIn_le byte bytes _ _ _ _ hin'.1 h' (Nat.le_refl stop')
    have hback := @countIn_le byte bytes _ _ _ _ hbefore h hin.2
    omega

theorem countIn_length (pos : Nat) : countIn byte bytes pos bytes.length = (bytes.drop pos).count byte := by
  rw [countIn, slice, List.take_length]

/-- Each edit takes the byte away at least once. -/
theorem count_weave_add_length_le {chosen : List Edit} (h : Follow bytes.length chosen)
    (hlowers : ∀ e ∈ chosen, e.Lowers byte bytes) {pos : Nat}
    (hpos : (pos : Int) ≤ limit bytes.length chosen) :
    (weave bytes pos chosen).count byte + chosen.length ≤ countIn byte bytes pos bytes.length := by
  induction chosen generalizing pos with
  | nil => rw [weave, countIn_length, List.length_nil, Nat.add_zero]
  | cons e chosen ih =>
    obtain ⟨htail, hlimit⟩ := h.tail
    obtain ⟨hnonneg, hrange⟩ := h.range e List.mem_cons_self
    have hinside := h.inside e List.mem_cons_self
    simp only [limit] at hpos
    have hrest : (weave bytes e.stop.toNat chosen).count byte + chosen.length ≤
        countIn byte bytes e.stop.toNat bytes.length :=
      ih htail (fun d hd => hlowers d (List.mem_cons_of_mem _ hd)) (by omega)
    have hlower : (utf8 e.text).count byte < countIn byte bytes e.start.toNat e.stop.toNat :=
      hlowers e List.mem_cons_self
    have hfront := @countIn_add byte bytes pos e.start.toNat bytes.length (by omega) (by omega)
    have hback := @countIn_add byte bytes e.start.toNat e.stop.toNat bytes.length (by omega) (by omega)
    have hgap : (slice bytes pos e.start.toNat).count byte = countIn byte bytes pos e.start.toNat := rfl
    rw [weave, List.count_append, List.count_append, List.length_cons, hgap]
    omega

/-- A text that edits of this sort are applied to changes. -/
theorem text_ne_of_lowers {text : String} {edits : List Edit}
    (hrange : ∀ e ∈ edits, 0 ≤ e.start ∧ e.start ≤ e.stop)
    (hboundary : ∀ e ∈ edits, e.stop ≤ byteLength text →
      IsBoundary text e.start ∧ IsBoundary text e.stop)
    (hlowers : ∀ e ∈ edits, e.Lowers byte (utf8 text)) {outcome : Outcome}
    (h : applyAll text edits = .ok outcome) (happlied : outcome.applied ≠ 0) :
    outcome.text ≠ text := by
  obtain ⟨outcome', hok, htext, hcount, _⟩ := applyAll_eq_selection hrange hboundary
  rw [h] at hok
  cases hok
  have hfollow := (tracks_applyBytes (utf8 text) hrange).follow
  have hsub := selection_subperm (utf8 text) hrange
  rw [← length_utf8] at htext hcount
  have hle := count_weave_add_length_le hfollow (fun e he => hlowers e (hsub.subset he))
    (limit_bounds hfollow).1
  rintro heq
  rw [heq] at htext
  rw [← htext, countIn_length, List.drop_zero] at hle
  omega

end QueryLint.Finding.Edit
