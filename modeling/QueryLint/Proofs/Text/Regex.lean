import Mathlib.Computability.Language
import QueryLint.Text.Regex

/-!
# What regular expressions match

The texts that an expression takes off the front of a text form a language, which is put together as the
expression is. Trying all ways misses none of them, so that an expression matches a whole text exactly if
the text is in the language, but for a line feed behind it.
-/
namespace QueryLint.Text

/-- Whether a text is in a language up to its end, or up to a line feed at its end. -/
def MatchesToEnd (form : Language Char) (s : String) : Prop :=
  ∃ cs ∈ form, s.toList = cs ∨ s.toList = cs ++ ['\n']

namespace Regex

/-- The texts that an expression matches. -/
def language : Regex → Language Char
  | never => 0
  | literal s => {s.toList}
  | either a b => a.language + b.language
  | inTurn a b => a.language * b.language

variable {r : Regex} {texts : List String} {cs rest : List Char}

theorem mem_language_optional : cs ∈ r.optional.language ↔ cs ∈ r.language ∨ cs = [] :=
  Language.mem_add r.language {[]} cs

theorem mem_language_oneOf : cs ∈ (oneOf texts).language ↔ ∃ s ∈ texts, cs = s.toList := by
  induction texts with
  | nil => simp [oneOf, language, Language.notMem_zero]
  | cons s texts ih =>
    have hcons : (oneOf (s :: texts)).language = {s.toList} + (oneOf texts).language := rfl
    rw [hcons, Language.mem_add, ih, List.exists_mem_cons_iff]
    rfl

/-- What is left of a text is what stands behind a text that the expression matches. -/
theorem mem_rests_iff : rest ∈ r.rests cs ↔ ∃ front ∈ r.language, cs = front ++ rest := by
  induction r generalizing cs rest with
  | never => simp [rests, language, Language.notMem_zero]
  | literal s =>
    rw [rests]
    constructor
    · intro h
      split_ifs at h with hprefix
      · obtain ⟨back, rfl⟩ := List.isPrefixOf_iff_prefix.mp hprefix
        rw [List.drop_left] at h
        exact ⟨s.toList, rfl, (List.mem_singleton.mp h) ▸ rfl⟩
      · cases h
    · rintro ⟨_, rfl, rfl⟩
      rw [if_pos (List.isPrefixOf_iff_prefix.mpr (List.prefix_append ..)), List.drop_left]
      exact List.mem_singleton_self rest
  | either a b iha ihb =>
    rw [rests, List.mem_append, iha, ihb]
    simp only [language, Language.mem_add, or_and_right, exists_or]
  | inTurn a b iha ihb =>
    rw [rests, List.mem_flatMap]
    constructor
    · rintro ⟨middle, hmiddle, hrest⟩
      obtain ⟨front, hfront, rfl⟩ := iha.mp hmiddle
      obtain ⟨back, hback, rfl⟩ := ihb.mp hrest
      exact ⟨front ++ back, Language.append_mem_mul hfront hback, (List.append_assoc ..).symm⟩
    · rintro ⟨_, hboth, rfl⟩
      obtain ⟨front, hfront, back, hback, rfl⟩ := Language.mem_mul.mp hboth
      exact ⟨back ++ rest, iha.mpr ⟨front, hfront, List.append_assoc ..⟩,
        ihb.mpr ⟨back, hback, rfl⟩⟩

theorem matchesWhole_iff {s : String} : r.matchesWhole s ↔ MatchesToEnd r.language s := by
  simp only [matchesWhole, List.any_eq_true, mem_rests_iff, isAtEnd, Bool.or_eq_true,
    decide_eq_true_eq]
  constructor
  · rintro ⟨rest, ⟨front, hfront, hs⟩, rfl | rfl⟩
    · exact ⟨front, hfront, .inl (hs.trans (List.append_nil front))⟩
    · exact ⟨front, hfront, .inr hs⟩
  · rintro ⟨front, hfront, hs | hs⟩
    · exact ⟨[], ⟨front, hfront, hs.trans (List.append_nil front).symm⟩, .inl rfl⟩
    · exact ⟨['\n'], ⟨front, hfront, hs⟩, .inr rfl⟩

end Regex

end QueryLint.Text
