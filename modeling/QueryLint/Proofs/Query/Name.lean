import Mathlib.Data.List.Basic
import Mathlib.Data.String.Basic
import QueryLint.Proofs.Text.Regex
import QueryLint.Query.Name

/-!
# What the name of a query tells

The name of a query is a variant with an accessor behind it. What is asked of a name is found out in
three ways: by the form of such names and the list of all of them, by whether `All` stands somewhere in it, and by
what stands behind its first `By`. They agree on every name, but that a name is also of the form of a query
that answers with a promise if one line feed follows it.
-/
namespace QueryLint.Query

open QueryLint.Text QueryLint.Text.Regex

section Characters

variable {front back : List Char}

/-- A character other than the letters of `All` keeps what stands before it and behind it apart. -/
theorem mentionsAll_append_cons {c : Char} (hcapital : c ≠ 'A') (hsmall : c ≠ 'l') :
    mentionsAll (front ++ c :: back) = (mentionsAll front || mentionsAll back) := by
  fun_induction mentionsAll front with
  | case1 rest => rfl
  | case2 x rest hfirst ih =>
    rw [List.cons_append, mentionsAll, ih]
    intro more hx hrest
    -- the two letters behind the first one stand before `c`, or `c` is one of them
    match rest with
    | [] => exact hsmall (List.head_eq_of_cons_eq hrest)
    | [y] => exact hsmall (List.head_eq_of_cons_eq (List.tail_eq_of_cons_eq hrest))
    | y :: z :: rest =>
      cases hrest
      exact hfirst _ hx rfl
  | case3 =>
    rw [List.nil_append, mentionsAll, Bool.false_or]
    exact fun _ hc => absurd hc hcapital

/-- The first `By` is the one before which there is no capital `B`. -/
theorem afterBy_append (h : 'B' ∉ front) : afterBy (front ++ 'B' :: 'y' :: back) = some back := by
  induction front with
  | nil => rfl
  | cons c front ih =>
    rw [List.mem_cons, not_or] at h
    rw [List.cons_append, afterBy, ih h.2]
    exact fun _ heq => absurd heq.symm h.1

end Characters

variable {name variant accessor : String}

theorem mem_combinations {variants : List String} :
    name ∈ combinations variants ↔ ∃ v ∈ variants, ∃ a ∈ accessors, name = v ++ a := by
  simp only [combinations, List.mem_flatMap, List.mem_map, eq_comm]

/-- A variant ends in the only `By` that it holds. -/
theorem exists_variant (h : variant ∈ syncVariants ++ asyncVariants) :
    ∃ front, variant.toList = front ++ ['B', 'y'] ∧ 'B' ∉ front := by
  have hall : ∀ v ∈ syncVariants ++ asyncVariants,
      v.toList = v.toList.dropLast.dropLast ++ ['B', 'y'] ∧ 'B' ∉ v.toList.dropLast.dropLast := by
    decide
  exact ⟨_, hall variant h⟩

theorem accessor?_append (h : variant ∈ syncVariants ++ asyncVariants) :
    accessor? (variant ++ accessor) = some accessor := by
  obtain ⟨front, hvariant, hfront⟩ := exists_variant h
  rw [accessor?, String.toList_append, hvariant, List.append_assoc]
  simp [afterBy_append hfront]

/-- No accessor mentions `All`, so that the variant decides. -/
theorem waitingVariant_append (h : variant ∈ syncVariants ++ asyncVariants) (ha : accessor ∈ accessors) :
    waitingVariant (variant ++ accessor) = waitingVariant variant := by
  obtain ⟨front, hvariant, -⟩ := exists_variant h
  have haccessors : ∀ a ∈ accessors, mentionsAll a.toList = false := by decide
  have hsplit : ∀ cs, front ++ ['B', 'y'] ++ cs = front ++ ['B'] ++ 'y' :: cs := by simp
  have hmentions : ∀ cs, mentionsAll (front ++ ['B', 'y'] ++ cs) =
      (mentionsAll (front ++ ['B']) || mentionsAll cs) := fun cs => by
    rw [hsplit, mentionsAll_append_cons (by decide) (by decide)]
  have hvariantOnly := hmentions []
  rw [List.append_nil] at hvariantOnly
  rw [waitingVariant, waitingVariant, String.toList_append, hvariant, hmentions, hvariantOnly,
    haccessors _ ha]
  rfl

/-- The form gives the names that are put together of variants and accessors, and no others. -/
theorem mem_language_asyncForm {cs : List Char} :
    cs ∈ asyncForm.language ↔ ∃ q ∈ combinations asyncVariants, cs = q.toList := by
  have hvariant : ∀ cs, cs ∈ (Regex.literal "find").language *
      ((Regex.literal "All").optional.language * (Regex.literal "By").language) ↔
        ∃ v ∈ asyncVariants, cs = v.toList := by
    intro cs
    simp only [Language.mem_mul, mem_language_optional]
    constructor
    · rintro ⟨_, rfl, _, ⟨_, rfl | rfl, _, rfl, rfl⟩, rfl⟩
      · exact ⟨"findAllBy", by decide, by decide⟩
      · exact ⟨"findBy", by decide, by decide⟩
    · rintro ⟨v, hv, rfl⟩
      rw [asyncVariants, List.mem_pair] at hv
      rcases hv with rfl | rfl
      · exact ⟨_, rfl, _, ⟨[], .inr rfl, _, rfl, rfl⟩, by decide⟩
      · exact ⟨_, rfl, _, ⟨_, .inl rfl, _, rfl, rfl⟩, by decide⟩
  have hform : asyncForm.language = (Regex.literal "find").language *
      ((Regex.literal "All").optional.language * (Regex.literal "By").language) *
        (Regex.oneOf accessors).language := by
    rw [mul_assoc, mul_assoc]
    rfl
  rw [hform, Language.mem_mul]
  constructor
  · rintro ⟨front, hfront, back, hback, rfl⟩
    obtain ⟨v, hv, rfl⟩ := (hvariant front).mp hfront
    obtain ⟨a, ha, rfl⟩ := mem_language_oneOf.mp hback
    exact ⟨v ++ a, mem_combinations.mpr ⟨v, hv, a, ha, rfl⟩, (String.toList_append ..).symm⟩
  · rintro ⟨q, hq, rfl⟩
    obtain ⟨v, hv, a, ha, rfl⟩ := mem_combinations.mp hq
    exact ⟨v.toList, (hvariant _).mpr ⟨v, hv, rfl⟩, a.toList, mem_language_oneOf.mpr ⟨a, ha, rfl⟩,
      (String.toList_append ..).symm⟩

theorem isAsync_iff : isAsync name ↔ name ∈ combinations asyncVariants ∨
    ∃ q ∈ combinations asyncVariants, name = q ++ "\n" := by
  have hfeed : ∀ q : String, name.toList = q.toList ++ ['\n'] ↔ name = q ++ "\n" := by
    intro q
    rw [← String.toList_inj, String.toList_append]
    rfl
  rw [isAsync, matchesWhole_iff, MatchesToEnd]
  constructor
  · rintro ⟨_, hform, hname⟩
    obtain ⟨q, hq, rfl⟩ := mem_language_asyncForm.mp hform
    rcases hname with hsame | hlonger
    · exact .inl (String.toList_inj.mp hsame ▸ hq)
    · exact .inr ⟨q, hq, (hfeed q).mp hlonger⟩
  · rintro (h | ⟨q, hq, hlonger⟩)
    · exact ⟨_, mem_language_asyncForm.mpr ⟨name, h, rfl⟩, .inl rfl⟩
    · exact ⟨_, mem_language_asyncForm.mpr ⟨q, hq, rfl⟩, .inr ((hfeed q).mpr hlonger)⟩

/-- Only the names of queries that answer with a promise start with an `f`. -/
theorem not_isSync_of_isAsync (h : isAsync name) : ¬ isSync name := by
  have hsync : ∀ q ∈ combinations syncVariants, q.toList.head? ≠ some 'f' := by decide
  have hasync : ∀ q ∈ combinations asyncVariants, q.toList.head? = some 'f' := by decide
  have hname : name.toList.head? = some 'f' := by
    rcases isAsync_iff.mp h with h | ⟨q, hq, rfl⟩
    · exact hasync name h
    · rw [String.toList_append, List.head?_append, hasync q hq, Option.some_or]
  rw [isSync, List.contains_iff_mem]
  exact fun h => hsync name h hname

/-- The variant that waits for many elements goes with the variants for many elements. -/
theorem waitingVariant_eq_findAllBy_iff (h : variant ∈ syncVariants) (ha : accessor ∈ accessors) :
    waitingVariant (variant ++ accessor) = "findAllBy" ↔
      "getAllBy".toList <+: (variant ++ accessor).toList ∨
        "queryAllBy".toList <+: (variant ++ accessor).toList := by
  rw [waitingVariant_append (List.mem_append_left _ h) ha, String.toList_append]
  simp only [syncVariants, List.mem_cons, List.not_mem_nil, or_false] at h
  rcases h with rfl | rfl | rfl | rfl <;> simp [waitingVariant, mentionsAll]

/-- The readings of a name agree. A name is taken for that of a query that answers with a promise exactly if
it is one, perhaps with one line feed behind it, and never for that of one that answers at once as well.
The waiting form of a query that answers at once is a query that answers with a promise, by the same
accessor and for as many elements. -/
theorem readings_agree (name : String) :
    ((isAsync name ↔ name ∈ combinations asyncVariants) ↔
        ∀ q ∈ combinations asyncVariants, name ≠ q ++ "\n") ∧
      (isAsync name ↔ name ∈ combinations asyncVariants ∨
        ∃ q ∈ combinations asyncVariants, name = q ++ "\n") ∧
      ¬ (isAsync name ∧ isSync name) ∧
      (isSync name → ∃ accessor, accessor? name = some accessor ∧
        waitingVariant name ++ accessor ∈ combinations asyncVariants ∧
        isAsync (waitingVariant name ++ accessor) ∧
        accessor? (waitingVariant name ++ accessor) = some accessor ∧
        (waitingVariant name = "findAllBy" ↔
          "getAllBy".toList <+: name.toList ∨ "queryAllBy".toList <+: name.toList)) := by
  have hfeed : ∀ q ∈ combinations asyncVariants, q ++ "\n" ∉ combinations asyncVariants := by
    decide
  refine ⟨⟨fun h q hq hname => ?_, fun h => ?_⟩, isAsync_iff,
    fun h => not_isSync_of_isAsync h.1 h.2, fun h => ?_⟩
  · exact hfeed q hq (hname ▸ h.mp (isAsync_iff.mpr (.inr ⟨q, hq, hname⟩)))
  · rw [isAsync_iff, or_iff_left]
    rintro ⟨q, hq, hname⟩
    exact h q hq hname
  · obtain ⟨v, hv, accessor, ha, rfl⟩ := mem_combinations.mp (List.contains_iff_mem.mp h)
    have hwaiting : waitingVariant (v ++ accessor) ∈ asyncVariants := by
      unfold waitingVariant
      split <;> decide
    have hmem := mem_combinations.mpr ⟨_, hwaiting, accessor, ha, rfl⟩
    exact ⟨accessor, accessor?_append (List.mem_append_left _ hv), hmem, isAsync_iff.mpr (.inl hmem),
      accessor?_append (List.mem_append_right _ hwaiting), waitingVariant_eq_findAllBy_iff hv ha⟩

/-- A name with a line feed behind it is none of the names, but is taken for one. -/
theorem isAsync_lineFeed :
    ¬ (isAsync "findByText\n" ↔ "findByText\n" ∈ combinations asyncVariants) := by
  decide

/-- Of the accessors one is part of others, and starts almost like `All`. -/
theorem readings_agree_altText : isSync "queryAllByAltText" ∧ ¬ isAsync "queryAllByAltText" ∧
    ∃ accessor, accessor? "queryAllByAltText" = some accessor ∧
      waitingVariant "queryAllByAltText" ++ accessor ∈ combinations asyncVariants ∧
      waitingVariant "queryAllByAltText" = "findAllBy" := by
  have hsync : isSync "queryAllByAltText" := by decide
  obtain ⟨-, -, hapart, hwaiting⟩ := readings_agree "queryAllByAltText"
  obtain ⟨accessor, haccessor, hmem, -, -, hmany⟩ := hwaiting hsync
  exact ⟨hsync, fun h => hapart ⟨h, hsync⟩, accessor, haccessor, hmem,
    hmany.mpr (.inr ⟨"AltText".toList, by decide⟩)⟩

end QueryLint.Query
