import Mathlib.Data.List.Basic
import QueryLint.Schema.LintResult
import QueryLint.Text.Sha256

/-!
# Digests

A digest is 64 hexadecimal digits in lower case, whatever the message.
-/
namespace QueryLint.Text

open QueryLint.Schema

/-- A hexadecimal digit in lower case. -/
def IsHexDigit (c : Char) : Prop := '0' ≤ c ∧ c ≤ '9' ∨ 'a' ≤ c ∧ c ≤ 'f'

instance (c : Char) : Decidable (IsHexDigit c) := inferInstanceAs (Decidable (_ ∨ _))

theorem isHexDigit_digitChar : ∀ n < 16, IsHexDigit (Nat.digitChar n) := by decide

theorem isHexDigit_of_mem_hexDigits {width n : Nat} {c : Char} (h : c ∈ hexDigits width n) :
    IsHexDigit c := by
  induction width generalizing n with
  | zero => cases h
  | succ width ih =>
    rcases List.mem_append.mp h with hfront | hlast
    · exact ih hfront
    · rw [List.mem_singleton.mp hlast]
      exact isHexDigit_digitChar _ (Nat.mod_lt _ (by decide))

theorem isHexDigit_of_mem_sha256 {message : Bytes} {c : Char} (h : c ∈ (sha256 message).toList) :
    IsHexDigit c := by
  rw [sha256, String.toList_ofList] at h
  obtain ⟨w, _, hc⟩ := List.mem_flatMap.mp h
  exact isHexDigit_of_mem_hexDigits hc

theorem length_sha256 (message : Bytes) : (sha256 message).toList.length = 64 := by
  rw [sha256, String.toList_ofList]
  simp [Sha256.State.words]

theorem accepts_fingerprintPattern {digits : List Char} (hdigits : ∀ c ∈ digits, IsHexDigit c)
    (hlength : digits.length = 64) :
    fingerprintPattern.accepts ("sha256:".toList ++ digits) := by
  have hmark : "sha256:".toList.length = 7 := rfl
  have hlast : digits.getLast? ≠ some '\n' := fun h =>
    absurd (hdigits _ (List.mem_of_getLast? h)) (by decide)
  have hall : (digits.all fun c => '0' ≤ c && c ≤ '9' || 'a' ≤ c && c ≤ 'f') = true :=
    List.all_eq_true.mpr fun c hc => by simpa [IsHexDigit] using hdigits c hc
  simp only [fingerprintPattern, List.take_left' hmark, List.drop_left' hmark, if_neg hlast, hlength,
    hall, beq_self_eq_true, Bool.and_self]

end QueryLint.Text
