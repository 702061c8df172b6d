import Mathlib.Data.List.Basic
import QueryLint.Schema.Basic

/-!
# What demands mean

A demand says something about a value, whatever its place in the value that is checked. A check reports
a violation exactly if a value does not meet some demand, so that a value may be shown to pass part by
part.
-/
namespace QueryLint.Schema

open QueryLint.Data

/-- A value meets a demand. A demand that makes no sense for a value asks nothing of it. -/
inductive Meets : Value → Demand → Prop where
  | type {v : Value} {t : ValueType} (h : t.holds v) : Meets v (.type t)
  | const {s : String} : Meets (.text s) (.const s)
  | oneOf {s : String} {options : List String} (h : s ∈ options) : Meets (.text s) (.oneOf options)
  | required {v : Value} {keys : List String}
      (h : ∀ ms, v = .object ms → ∀ k ∈ keys, (Members.get? ms k).isSome) : Meets v (.required keys)
  | closed {v : Value} {keys : List String}
      (h : ∀ ms, v = .object ms → ∀ k ∈ Members.keys ms, k ∈ keys) : Meets v (.closed keys)
  | properties {v : Value} {members : List (String × List Demand)}
      (h : ∀ ms, v = .object ms → ∀ m ∈ members, ∀ w, Members.get? ms m.1 = some w →
        ∀ d ∈ m.2, Meets w d) : Meets v (.properties members)
  | members {v : Value} {demands : List Demand}
      (h : ∀ ms, v = .object ms → ∀ m ∈ ms, ∀ d ∈ demands, Meets m.2 d) : Meets v (.members demands)
  | keys {v : Value} {demands : List Demand}
      (h : ∀ ms, v = .object ms → ∀ m ∈ ms, ∀ d ∈ demands, Meets (.text m.1) d) :
      Meets v (.keys demands)
  | items {v : Value} {demands : List Demand}
      (h : ∀ vs, v = .list vs → ∀ w ∈ vs, ∀ d ∈ demands, Meets w d) : Meets v (.items demands)
  | nonEmpty {v : Value} (h : v ≠ .text "") : Meets v .nonEmpty
  | minimum {v : Value} {n : Int}
      (h : ∀ x, v.quantity? = some x → (∃ b, v = .bool b) ∨ x.lt (.ratio n 1) = false) :
      Meets v (.minimum n)
  | pattern {v : Value} {p : Pattern} (h : ∀ s, v = .text s → p.accepts s.toList) :
      Meets v (.pattern p)

/-- A value meets all of some demands. -/
def MeetsAll (v : Value) (demands : List Demand) : Prop := ∀ d ∈ demands, Meets v d

section Plain

variable {v : Value}

theorem plainMessages_type_iff {t : ValueType} :
    plainMessages (.type t) v = [] ↔ Meets v (.type t) := by
  rw [plainMessages_type_eq_nil_iff]
  constructor
  · exact .type
  · rintro ⟨h⟩
    exact h

theorem plainMessages_const_iff {s : String} :
    plainMessages (.const s) v = [] ↔ Meets v (.const s) := by
  constructor
  · intro h
    cases v with
    | text t =>
      obtain rfl : t = s := by
        by_contra hnot
        simp [plainMessages, hnot] at h
      exact .const
    | _ => simp [plainMessages] at h
  · rintro ⟨⟩
    simp [plainMessages]

theorem plainMessages_oneOf_iff {options : List String} :
    plainMessages (.oneOf options) v = [] ↔ Meets v (.oneOf options) := by
  constructor
  · intro h
    cases v with
    | text t =>
      refine .oneOf ?_
      by_contra hnot
      simp [plainMessages, hnot] at h
    | _ => simp [plainMessages] at h
  · intro h
    cases h with
    | oneOf h => simp [plainMessages, h]

theorem plainMessages_required_iff {keys : List String} :
    plainMessages (.required keys) v = [] ↔ Meets v (.required keys) := by
  constructor
  · intro h
    refine .required ?_
    rintro ms rfl k hk
    have hthere := List.filter_eq_nil_iff.mp (List.map_eq_nil_iff.mp h) k hk
    simpa [Option.isSome_iff_ne_none] using hthere
  · intro h
    cases h with
    | required h =>
      cases v with
      | object ms =>
        refine List.map_eq_nil_iff.mpr (List.filter_eq_nil_iff.mpr fun k hk => ?_)
        simpa [Option.isSome_iff_ne_none] using h ms rfl k hk
      | _ => rfl

theorem plainMessages_closed_iff {keys : List String} :
    plainMessages (.closed keys) v = [] ↔ Meets v (.closed keys) := by
  constructor
  · intro h
    refine .closed ?_
    rintro ms rfl k hk
    rw [plainMessages] at h
    split at h
    · next hextra => simpa using List.filter_eq_nil_iff.mp hextra k hk
    · cases h
  · intro h
    cases h with
    | closed h =>
      cases v with
      | object ms =>
        have hextra : (Members.keys ms).filter (fun k => !keys.contains k) = [] :=
          List.filter_eq_nil_iff.mpr fun k hk => by simpa using h ms rfl k hk
        simp only [plainMessages, hextra]
      | _ => rfl

theorem plainMessages_nonEmpty_iff : plainMessages .nonEmpty v = [] ↔ Meets v .nonEmpty := by
  constructor
  · intro h
    refine .nonEmpty ?_
    rintro rfl
    cases h
  · intro h
    cases h with
    | nonEmpty h =>
      cases v with
      | text s =>
        simp [plainMessages]
      | _ => rfl

theorem plainMessages_minimum_iff {n : Int} :
    plainMessages (.minimum n) v = [] ↔ Meets v (.minimum n) := by
  constructor
  · intro h
    refine .minimum fun x hx => ?_
    cases v with
    | bool b => exact .inl ⟨b, rfl⟩
    | _ => exact .inr (by simpa [plainMessages, hx] using h)
  · intro h
    cases h with
    | minimum h =>
      simp only [plainMessages]
      split
      · rfl
      · next hbool =>
        split
        · next x hx =>
          obtain ⟨b, rfl⟩ | hle := h x hx
          · exact absurd rfl (hbool b)
          · simp [hle]
        · rfl

theorem plainMessages_pattern_iff {p : Pattern} :
    plainMessages (.pattern p) v = [] ↔ Meets v (.pattern p) := by
  constructor
  · intro h
    refine .pattern ?_
    rintro s rfl
    by_contra hnot
    simp [plainMessages, hnot] at h
  · intro h
    cases h with
    | pattern h =>
      cases v with
      | text s => simp [plainMessages, h s rfl]
      | _ => rfl

end Plain

mutual

/-- A demand is broken nowhere in a value exactly if the value meets it. -/
theorem violationsOf_eq_nil_iff (path : List Step) (v : Value) (asked : Bool) (d : Demand) :
    violationsOf path v asked d = [] ↔ Meets v d := by
  cases d with
  | properties members =>
    constructor
    · intro h
      refine .properties ?_
      rintro ms rfl
      exact (propertyViolations_eq_nil_iff path ms members).mp h
    · intro h
      cases h with
      | properties h =>
        cases v with
        | object ms => exact (propertyViolations_eq_nil_iff path ms members).mpr (h ms rfl)
        | _ => rfl
  | members demands =>
    constructor
    · intro h
      refine .members ?_
      rintro ms rfl m hm
      exact (violationsIn_eq_nil_iff _ _ _ demands).mp (List.flatMap_eq_nil_iff.mp h m hm)
    · intro h
      cases h with
      | members h =>
        cases v with
        | object ms =>
          exact List.flatMap_eq_nil_iff.mpr fun m hm =>
            (violationsIn_eq_nil_iff _ _ _ demands).mpr (h ms rfl m hm)
        | _ => rfl
  | keys demands =>
    constructor
    · intro h
      refine .keys ?_
      rintro ms rfl m hm
      exact (violationsIn_eq_nil_iff _ _ _ demands).mp (List.flatMap_eq_nil_iff.mp h m hm)
    · intro h
      cases h with
      | keys h =>
        cases v with
        | object ms =>
          exact List.flatMap_eq_nil_iff.mpr fun m hm =>
            (violationsIn_eq_nil_iff _ _ _ demands).mpr (h ms rfl m hm)
        | _ => rfl
  | items demands =>
    constructor
    · intro h
      refine .items ?_
      rintro vs rfl w hw
      obtain ⟨i, hi⟩ := List.mem_iff_getElem?.mp hw
      exact (violationsIn_eq_nil_iff _ _ _ demands).mp
        (List.flatMap_eq_nil_iff.mp h (w, i) (List.mem_zipIdx_iff_getElem?.mpr hi))
    · intro h
      cases h with
      | items h =>
        cases v with
        | list vs =>
          exact List.flatMap_eq_nil_iff.mpr fun (w, i) hw =>
            (violationsIn_eq_nil_iff _ _ _ demands).mpr (h vs rfl w (List.fst_mem_of_mem_zipIdx hw))
        | _ => rfl
  | type t => exact List.map_eq_nil_iff.trans plainMessages_type_iff
  | const s => exact List.map_eq_nil_iff.trans plainMessages_const_iff
  | oneOf options => exact List.map_eq_nil_iff.trans plainMessages_oneOf_iff
  | required keys => exact List.map_eq_nil_iff.trans plainMessages_required_iff
  | closed keys => exact List.map_eq_nil_iff.trans plainMessages_closed_iff
  | nonEmpty => exact List.map_eq_nil_iff.trans plainMessages_nonEmpty_iff
  | minimum n => exact List.map_eq_nil_iff.trans plainMessages_minimum_iff
  | pattern p => exact List.map_eq_nil_iff.trans plainMessages_pattern_iff

theorem violationsIn_eq_nil_iff (path : List Step) (v : Value) (asked : Bool) (ds : List Demand) :
    violationsIn path v asked ds = [] ↔ MeetsAll v ds := by
  cases ds with
  | nil => simp [violationsIn, MeetsAll]
  | cons d ds =>
    rw [violationsIn, List.append_eq_nil_iff, violationsOf_eq_nil_iff path v asked d,
      violationsIn_eq_nil_iff path v asked ds, MeetsAll, MeetsAll, List.forall_mem_cons]

theorem propertyViolations_eq_nil_iff (path : List Step) (ms : Members)
    (members : List (String × List Demand)) :
    propertyViolations path ms members = [] ↔
      ∀ m ∈ members, ∀ w, Members.get? ms m.1 = some w → MeetsAll w m.2 := by
  cases members with
  | nil => simp [propertyViolations]
  | cons m rest =>
    obtain ⟨k, demands⟩ := m
    rw [propertyViolations, List.append_eq_nil_iff, propertyViolations_eq_nil_iff path ms rest,
      List.forall_mem_cons]
    refine and_congr_left fun _ => ?_
    cases hv : Members.get? ms k with
    | none => simp
    | some v =>
      simp only [Option.some.injEq, forall_eq']
      exact violationsIn_eq_nil_iff _ v _ demands

end

/-- Once there is something, going on keeps something if each step does. -/
theorem isSome_foldl {α β : Type} {step : Option α → β → Option α}
    (hstep : ∀ best b, best.isSome → (step best b).isSome) {best : Option α} (h : best.isSome)
    (bs : List β) : (bs.foldl step best).isSome := by
  induction bs generalizing best with
  | nil => exact h
  | cons b bs ih => exact ih (hstep best b h)

/-- A check finds nothing to report exactly if all demands are met. -/
theorem check_eq_none_iff (demands : List Demand) (v : Value) :
    check demands v = none ↔ MeetsAll v demands := by
  rw [← violationsIn_eq_nil_iff [] v (hasAskedType demands v) demands, check, violations]
  generalize violationsIn [] v (hasAskedType demands v) demands = found
  constructor
  · intro h
    cases found with
    | nil => rfl
    | cons a rest =>
      rw [List.foldl_cons, ← Option.not_isSome_iff_eq_none] at h
      refine absurd (isSome_foldl (fun best b hbest => ?_) rfl rest) h
      obtain ⟨c, rfl⟩ := Option.isSome_iff_exists.mp hbest
      by_cases hb : b.outranks c <;> simp [hb]
  · rintro rfl
    rfl

end QueryLint.Schema
