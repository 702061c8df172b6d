import Mathlib.Data.List.Basic
import QueryLint.Data.Json.Reader
import QueryLint.Data.Json.Writer

/-!
# Texts in JSON

A text that is written is read back, character by character: each is escaped by itself, and an escape by
number never continues the one before it, because no half of a pair is written.
-/
namespace QueryLint.Data.Json

open QueryLint.Text (hexDigits)

/-- The number of a control character is read from its four digits. -/
theorem hexNumber?_hexDigits {n : Nat} (hn : n < 0x20) : ∃ a b c d, hexDigits 4 n = [a, b, c, d] ∧
    hexNumber? a b c d = some n := by
  have hall : ∀ n < 0x20, hexNumber? ((hexDigits 4 n).getD 0 '0') ((hexDigits 4 n).getD 1 '0')
      ((hexDigits 4 n).getD 2 '0') ((hexDigits 4 n).getD 3 '0') = some n := by decide
  exact ⟨_, _, _, _, rfl, hall n hn⟩

theorem characterOf_control {c : Char} (hc : c.toNat < 0x20) : characterOf c.toNat = c := by
  have hhigh : highHalf? c.toNat = none := if_neg (by omega)
  have hlow : lowHalf? c.toNat = none := if_neg (by omega)
  rw [characterOf, hhigh, hlow]
  simp

/-- A character that is written is read. -/
theorem readText_escapedChar (opening read : List Char) (c : Char) {rest : List Char} (hrest : rest ≠ []) :
    readText opening read none (escapedChar c ++ rest) = readText opening (c :: read) none rest := by
  obtain ⟨r, rest, rfl⟩ := List.exists_cons_of_ne_nil hrest
  unfold escapedChar
  split_ifs with hquote hslash hfeed hreturn htab hback hform hcontrol
  · subst hquote
    simp [readText, shortEscape?]
  · subst hslash
    simp [readText, shortEscape?]
  · subst hfeed
    simp [readText, shortEscape?]
  · subst hreturn
    simp [readText, shortEscape?]
  · subst htab
    simp [readText, shortEscape?]
  · subst hback
    simp [readText, shortEscape?]
  · subst hform
    simp [readText, shortEscape?]
  · obtain ⟨a, b, d, e, hdigits, hnumber⟩ := hexNumber?_hexDigits hcontrol
    have hhigh : highHalf? c.toNat = none := if_neg (by omega)
    simp [hdigits, readText, hnumber, addEscape, characterOf_control hcontrol, hhigh]
  · simp [readText, hslash, hcontrol]

/-- A text that is written is read back, up to its closing quote. -/
theorem readText_written (opening read cs rest : List Char) :
    readText opening read none (cs.flatMap escapedChar ++ '"' :: rest) =
      .ok ⟨String.ofList (read.reverse ++ cs), rest⟩ := by
  induction cs generalizing read with
  | nil => simp [readText]
  | cons c cs ih =>
    rw [List.flatMap_cons, List.append_assoc, readText_escapedChar _ _ _ (by simp), ih,
      List.reverse_cons, List.append_assoc, List.singleton_append]

theorem toList_writtenText (s : String) :
    (writtenText s).toList = '"' :: (s.toList.flatMap escapedChar ++ ['"']) := by
  simp [writtenText]

end QueryLint.Data.Json
