import Mathlib.Data.List.TakeWhile
import QueryLint.Data.Json.Reader
import QueryLint.Data.Json.Writer
import QueryLint.Proofs.Data.Shortest

/-!
# Numbers in JSON

A number that is written is read back: an integer by its digits, and a floating-point number because its
layout, with or without an exponent, spells a decimal of the same amount as its shortest one.
-/
namespace QueryLint.Data.Json

open QueryLint.Text (integerDigitLimit)

theorem digitsValue_eq (ds : List Char) : digitsValue ds = Nat.ofDigitChars 10 ds 0 := rfl

theorem digitsValue_append (ds es : List Char) :
    digitsValue (ds ++ es) = 10 ^ es.length * digitsValue ds + digitsValue es := by
  simp only [digitsValue_eq, Nat.ofDigitChars_append]
  exact Nat.ofDigitChars_eq_ofDigitChars_zero

@[simp] theorem digitsValue_replicate (n : Nat) : digitsValue (List.replicate n '0') = 0 := by
  simp [digitsValue_eq]

@[simp] theorem digitsValue_toDigits (n : Nat) : digitsValue (Nat.toDigits 10 n) = n := by
  simp [digitsValue_eq]

/-! ### Runs of digits -/

/-- Some digits, of which there is one. -/
structure IsRun (ds : List Char) : Prop where
  digits : ∀ c ∈ ds, isDigit c
  ne_nil : ds ≠ []

/-- A run of digits that is a lone zero or begins with another digit. -/
structure IsWhole (ds : List Char) : Prop extends IsRun ds where
  lead : ds = ['0'] ∨ ds.head? ≠ some '0'

theorem isWhole_zero : IsWhole ['0'] :=
  ⟨⟨List.forall_mem_singleton.mpr (by decide), List.cons_ne_nil _ _⟩, .inl rfl⟩

/-- Whether no digit comes first. -/
def EndsRun (cs : List Char) : Prop := ∀ c ∈ cs.head?, isDigit c = false

section Runs

variable {ds rest : List Char}

theorem EndsRun.takeWhile (h : EndsRun rest) : rest.takeWhile isDigit = [] := by
  cases rest with
  | nil => rfl
  | cons c cs => exact List.takeWhile_cons_of_neg (by simp [h c rfl])

theorem EndsRun.dropWhile (h : EndsRun rest) : rest.dropWhile isDigit = rest := by
  cases rest with
  | nil => rfl
  | cons c cs => exact List.dropWhile_cons_of_neg (by simp [h c rfl])

theorem takeWhile_run (hd : ∀ c ∈ ds, isDigit c) (h : EndsRun rest) :
    (ds ++ rest).takeWhile isDigit = ds := by
  rw [List.takeWhile_append_of_pos hd, h.takeWhile, List.append_nil]

theorem dropWhile_run (hd : ∀ c ∈ ds, isDigit c) (h : EndsRun rest) :
    (ds ++ rest).dropWhile isDigit = rest := by
  rw [List.dropWhile_append_of_pos hd, h.dropWhile]

theorem wholePart?_append (hd : IsWhole ds) (h : EndsRun rest) :
    wholePart? (ds ++ rest) = some ⟨ds, rest⟩ := by
  obtain ⟨⟨hdigits, hne⟩, hlead⟩ := hd
  have htake := takeWhile_run hdigits h
  have hdrop := dropWhile_run hdigits h
  obtain ⟨d, ds, rfl⟩ := List.exists_cons_of_ne_nil hne
  by_cases hd : d = '0'
  · subst hd
    obtain rfl : ds = [] := by simpa using hlead
    rfl
  · rw [List.cons_append] at htake hdrop ⊢
    rw [wholePart?]
    · rw [htake, hdrop]
    · intro after heq
      exact hd (List.cons.inj heq).1

theorem fractionPart_point (hd : IsRun ds) (h : EndsRun rest) :
    fractionPart ('.' :: (ds ++ rest)) = ⟨ds, rest⟩ := by
  obtain ⟨d, ds', rfl⟩ := List.exists_cons_of_ne_nil hd.ne_nil
  simp only [fractionPart, takeWhile_run hd.digits h, dropWhile_run hd.digits h]

theorem fractionPart_of_head (h : rest.head? ≠ some '.') : fractionPart rest = ⟨[], rest⟩ := by
  unfold fractionPart
  split
  · exact absurd rfl h
  · rfl

/-- The sign of an exponent. -/
def exponentSign (negative : Bool) : Char := if negative then '-' else '+'

theorem exponentPart?_append (negative : Bool) (hd : IsRun ds) (h : EndsRun rest) :
    exponentPart? ('e' :: exponentSign negative :: (ds ++ rest)) =
      some ⟨if negative then -(digitsValue ds : Int) else digitsValue ds, rest⟩ := by
  have htake := takeWhile_run hd.digits h
  have hdrop := dropWhile_run hd.digits h
  obtain ⟨d, ds', rfl⟩ := List.exists_cons_of_ne_nil hd.ne_nil
  rw [List.cons_append] at htake hdrop
  cases negative <;> simp [exponentPart?, exponentSign, htake, hdrop]

theorem exponentPart?_of_head (h : ∀ c ∈ rest.head?, c ≠ 'e' ∧ c ≠ 'E') :
    exponentPart? rest = none := by
  cases rest with
  | nil => rfl
  | cons c cs => simp [exponentPart?, h c rfl]

end Runs

/-! ### Numbers -/

/-- Characters with a sign before them. -/
def signed (negative : Bool) (cs : List Char) : List Char := if negative then '-' :: cs else cs

/-- Whether what comes first does not continue a number. -/
def EndsNumber (cs : List Char) : Prop :=
  ∀ c ∈ cs.head?, isDigit c = false ∧ c ≠ '.' ∧ c ≠ 'e' ∧ c ≠ 'E'

section Numbers

variable {ds rest after whole : List Char}

theorem EndsNumber.endsRun (h : EndsNumber rest) : EndsRun rest := fun c hc => (h c hc).1

theorem EndsNumber.fractionPart (h : EndsNumber rest) : fractionPart rest = ⟨[], rest⟩ :=
  fractionPart_of_head fun hhead => (h '.' hhead).2.1 rfl

theorem EndsNumber.exponentPart? (h : EndsNumber rest) : exponentPart? rest = none :=
  exponentPart?_of_head fun c hc => (h c hc).2.2

theorem IsWhole.exists_cons (h : IsWhole whole) : ∃ d ds, whole = d :: ds ∧ d ≠ '-' := by
  obtain ⟨d, ds, rfl⟩ := List.exists_cons_of_ne_nil h.ne_nil
  refine ⟨d, ds, rfl, ?_⟩
  rintro rfl
  exact absurd (h.digits '-' (by simp)) (by decide)

theorem IsWhole.lead_append (h : IsWhole whole) (after : List Char) :
    ∃ d ds, whole ++ after = d :: ds ∧ isDigit d := by
  obtain ⟨d, ds, rfl, -⟩ := h.exists_cons
  exact ⟨d, ds ++ after, rfl, h.digits d (by simp)⟩

/-- A number with nothing behind its whole part is an integer. -/
theorem readNumber_whole (negative : Bool) (hw : IsWhole whole) (hlimit : whole.length ≤ integerDigitLimit)
    (h : EndsNumber rest) : readNumber (signed negative whole ++ rest) =
      .ok ⟨.int (if negative then -(digitsValue whole : Int) else digitsValue whole), rest⟩ := by
  have hpart := wholePart?_append hw h.endsRun
  obtain ⟨d, ds, rfl, hd⟩ := hw.exists_cons
  rw [List.cons_append] at hpart
  have hlimit := not_lt.mpr hlimit
  rw [List.length_cons] at hlimit
  cases negative <;>
    simp [readNumber, signed, hd, hpart, h.fractionPart, h.exponentPart?, hlimit]

/-- A number with a fraction or an exponent behind its whole part is a floating-point number. -/
theorem readNumber_parts (negative : Bool) (hw : IsWhole whole) (h : EndsRun after) {left : List Char}
    {exponent : Option (Read Int)} (hf : fractionPart after = ⟨ds, left⟩)
    (he : exponentPart? left = exponent) (hne : ds ≠ [] ∨ exponent ≠ none) :
    readNumber (signed negative whole ++ after) =
      .ok ⟨.float (.ofDecimal negative (digitsValue (whole ++ ds))
        ((exponent.map (·.part)).getD 0 - ds.length)), (exponent.map (·.rest)).getD left⟩ := by
  have hpart := wholePart?_append hw h
  obtain ⟨d, cs, rfl, hd⟩ := hw.exists_cons
  rw [List.cons_append] at hpart
  cases ds with
  | cons => cases negative <;> simp [readNumber, signed, hd, hpart, hf, he]
  | nil =>
    obtain ⟨r, rfl⟩ : ∃ r, exponent = some r := Option.ne_none_iff_exists'.mp (by simpa using hne)
    cases negative <;> simp [readNumber, signed, hd, hpart, hf, he]

end Numbers

/-! ### Integers -/

theorem isDigit_of_mem_toDigits {n : Nat} {c : Char} (h : c ∈ Nat.toDigits 10 n) : isDigit c :=
  Nat.isDigit_of_mem_toDigits (by decide) (by decide) h

/-- The digits of a number do not begin with a zero, but for zero itself. -/
theorem head?_toDigits {n : Nat} (hn : n ≠ 0) : (Nat.toDigits 10 n).head? ≠ some '0' := by
  induction n using Nat.strong_induction_on with
  | _ n ih =>
    rw [Nat.toDigits_eq_if (by decide)]
    split
    · simpa using hn
    · next hge =>
      rw [List.head?_append_of_ne_nil _ Nat.toDigits_ne_nil]
      exact ih (n / 10) (by omega) (by omega)

theorem isWhole_toDigits (n : Nat) : IsWhole (Nat.toDigits 10 n) where
  digits _ := isDigit_of_mem_toDigits
  ne_nil := Nat.toDigits_ne_nil
  lead := by
    rcases Nat.eq_zero_or_pos n with rfl | hn
    · exact .inl (Nat.toDigits_zero 10)
    · exact .inr (head?_toDigits hn.ne')

theorem toList_toString (n : Int) :
    (toString n).toList = signed (n < 0) (Nat.toDigits 10 n.natAbs) := by
  cases n with
  | ofNat n => simp [toString, Int.repr, signed]
  | negSucc n => simp [toString, Int.repr, signed]

/-- An integer that is written is read back. -/
theorem readNumber_int {n : Int} {rest : List Char}
    (hn : (Nat.toDigits 10 n.natAbs).length ≤ integerDigitLimit) (h : EndsNumber rest) :
    readNumber ((toString n).toList ++ rest) = .ok ⟨.int n, rest⟩ := by
  rw [toList_toString, readNumber_whole _ (isWhole_toDigits _) hn h, digitsValue_toDigits]
  by_cases hneg : n < 0
  · have : -(n.natAbs : Int) = n := by omega
    simp only [hneg, decide_true, if_true, this]
  · have : (n.natAbs : Int) = n := by omega
    simp only [hneg, decide_false, Bool.false_eq_true, if_false, this]

/-! ### Floating-point numbers -/

open Binary64

/-- Characters that begin with a digit and are read as a decimal of an amount, whatever their sign. -/
structure Spells (cs : List Char) (amount : ℚ) : Prop where
  lead : ∃ d ds, cs = d :: ds ∧ isDigit d
  read : ∀ (negative : Bool) (rest : List Char), EndsNumber rest → ∃ (digits : Nat) (exponent : Int),
    (digits : ℚ) * 10 ^ exponent = amount ∧ readNumber (signed negative cs ++ rest) =
      .ok ⟨.float (.ofDecimal negative digits exponent), rest⟩

section Spelling

variable {whole ds es : List Char}

theorem signed_append (negative : Bool) (cs ds : List Char) :
    signed negative (cs ++ ds) = signed negative cs ++ ds := by
  cases negative <;> rfl

theorem endsRun_cons {c : Char} (rest : List Char) (h : isDigit c = false) : EndsRun (c :: rest) := by
  rintro _ ⟨⟩
  exact h

theorem spells_fraction (hw : IsWhole whole) (hd : IsRun ds) :
    Spells (whole ++ '.' :: ds) (digitsValue (whole ++ ds) * 10 ^ (-ds.length : Int)) := by
  refine ⟨hw.lead_append _, fun negative rest hrest => ?_⟩
  refine ⟨digitsValue (whole ++ ds), 0 - ds.length, by rw [zero_sub], ?_⟩
  rw [signed_append, List.append_assoc, List.cons_append, readNumber_parts negative hw
    (endsRun_cons _ (by decide)) (fractionPart_point hd hrest.endsRun) hrest.exponentPart? (.inl hd.ne_nil),
    Option.map_none, Option.map_none, Option.getD_none, Option.getD_none]

/-- The digits after the point, if there are some. -/
def pointed : List Char → List Char
  | [] => []
  | d :: ds => '.' :: d :: ds

theorem fractionPart_pointed (hd : ∀ c ∈ ds, isDigit c) {rest : List Char} (h : EndsRun rest)
    (hpoint : rest.head? ≠ some '.') : fractionPart (pointed ds ++ rest) = ⟨ds, rest⟩ := by
  cases ds with
  | nil => exact fractionPart_of_head hpoint
  | cons d ds => exact fractionPart_point ⟨hd, List.cons_ne_nil _ _⟩ h

theorem spells_exponent (hw : IsWhole whole) (hd : ∀ c ∈ ds, isDigit c) (below : Bool) (he : IsRun es) :
    Spells (whole ++ pointed ds ++ 'e' :: exponentSign below :: es) (digitsValue (whole ++ ds) *
      10 ^ ((if below then -(digitsValue es : Int) else digitsValue es) - ds.length)) := by
  refine ⟨List.append_assoc whole _ _ ▸ hw.lead_append _, fun negative rest hrest => ?_⟩
  have hends : EndsRun ('e' :: exponentSign below :: (es ++ rest)) := endsRun_cons _ (by decide)
  have hafter : EndsRun (pointed ds ++ 'e' :: exponentSign below :: (es ++ rest)) := by
    cases ds with
    | nil => exact hends
    | cons => exact endsRun_cons _ (by decide)
  refine ⟨_, _, rfl, ?_⟩
  rw [List.append_assoc, signed_append, List.append_assoc, List.append_assoc, List.cons_append,
    List.cons_append, readNumber_parts negative hw hafter (fractionPart_pointed hd hends (by simp))
      (exponentPart?_append below he hrest.endsRun) (.inr (Option.some_ne_none _)),
    Option.map_some, Option.map_some, Option.getD_some, Option.getD_some]

end Spelling

section Layout

variable {core : List Char} {point : Int}

theorem isDigit_of_mem_zeros {n : Nat} {c : Char} (h : c ∈ List.replicate n '0') : isDigit c := by
  rw [List.eq_of_mem_replicate h]
  decide

theorem IsRun.append {ds es : List Char} (hd : ∀ c ∈ ds, isDigit c) (he : IsRun es) :
    IsRun (ds ++ es) where
  digits c hc := (List.mem_append.mp hc).elim (hd c) (he.digits c)
  ne_nil := List.append_ne_nil_of_right_ne_nil _ he.ne_nil

theorem isWhole_of_lead {ds : List Char} (hrun : IsRun ds) (hlead : ds.head? ≠ some '0') : IsWhole ds :=
  ⟨hrun, .inr hlead⟩

theorem digitsValue_zeros_append (n : Nat) (ds : List Char) :
    digitsValue (List.replicate n '0' ++ ds) = digitsValue ds := by
  rw [digitsValue_append, digitsValue_replicate, Nat.mul_zero, Nat.zero_add]

theorem digitsValue_append_zeros (ds : List Char) (n : Nat) :
    digitsValue (ds ++ List.replicate n '0') = 10 ^ n * digitsValue ds := by
  rw [digitsValue_append, digitsValue_replicate, List.length_replicate, Nat.add_zero]

/-- The digits of an exponent, at least two of them. -/
theorem isRun_exponent (n : Nat) :
    IsRun (List.replicate (2 - (Nat.toDigits 10 n).length) '0' ++ Nat.toDigits 10 n) ∧
      digitsValue (List.replicate (2 - (Nat.toDigits 10 n).length) '0' ++ Nat.toDigits 10 n) = n := by
  refine ⟨.append (fun c hc => isDigit_of_mem_zeros hc) (isWhole_toDigits n).toIsRun, ?_⟩
  rw [digitsValue_zeros_append, digitsValue_toDigits]

theorem Spells.of_eq {cs : List Char} {a b : ℚ} (h : Spells cs a) (heq : a = b) : Spells cs b := heq ▸ h

/-- Digits with zeros between the point and them. -/
theorem spells_small (hrun : IsRun core) (n : Nat) :
    Spells ('0' :: '.' :: (List.replicate n '0' ++ core)) (digitsValue core * 10 ^ (-n - core.length : Int)) := by
  refine (spells_fraction isWhole_zero (.append (fun _ => isDigit_of_mem_zeros) hrun)).of_eq ?_
  have hvalue : digitsValue (['0'] ++ (List.replicate n '0' ++ core)) = digitsValue core :=
    digitsValue_zeros_append (n + 1) core
  rw [hvalue, List.length_append, List.length_replicate]
  congr 2
  push_cast
  ring

/-- Digits with zeros between them and the point. -/
theorem spells_large (hrun : IsRun core) (hlead : core.head? ≠ some '0') (n : Nat) :
    Spells (core ++ List.replicate n '0' ++ ['.', '0']) (digitsValue core * 10 ^ (n : Int)) := by
  have hwhole : IsWhole (core ++ List.replicate n '0') := by
    refine isWhole_of_lead ⟨?_, ?_⟩ ?_
    · exact fun c hc => (List.mem_append.mp hc).elim (hrun.digits c) isDigit_of_mem_zeros
    · exact List.append_ne_nil_of_left_ne_nil hrun.ne_nil _
    · rwa [List.head?_append_of_ne_nil _ hrun.ne_nil]
  refine (spells_fraction hwhole isWhole_zero.toIsRun).of_eq ?_
  have hvalue : digitsValue (core ++ List.replicate n '0' ++ ['0']) = 10 ^ (n + 1) * digitsValue core := by
    rw [List.append_assoc, ← digitsValue_append_zeros, List.replicate_succ']
  rw [hvalue]
  push_cast
  rw [List.length_singleton, Nat.cast_one, zpow_neg_one, zpow_natCast]
  ring

/-- Digits with the point among them. -/
theorem spells_middle (hrun : IsRun core) (hlead : core.head? ≠ some '0') {n : Nat} (hn : 0 < n)
    (hlt : n < core.length) :
    Spells (core.take n ++ '.' :: core.drop n) (digitsValue core * 10 ^ (n - core.length : Int)) := by
  have hwhole : IsWhole (core.take n) := by
    refine isWhole_of_lead ⟨fun c hc => hrun.digits c (List.mem_of_mem_take hc), ?_⟩ ?_
    · rw [Ne, List.take_eq_nil_iff]
      exact fun h => h.elim hn.ne' hrun.ne_nil
    · rwa [List.head?_take, if_neg hn.ne']
  have hpart : IsRun (core.drop n) :=
    ⟨fun c hc => hrun.digits c (List.mem_of_mem_drop hc), by
      rw [Ne, List.drop_eq_nil_iff]
      omega⟩
  refine (spells_fraction hwhole hpart).of_eq ?_
  rw [List.take_append_drop, List.length_drop, Nat.cast_sub hlt.le, neg_sub]

/-- Digits with an exponent, and the point after the first of them. -/
theorem spells_scientific {d : Char} {ds es : List Char} (hrun : IsRun (d :: ds)) (hlead : d ≠ '0')
    (he : IsRun es) {e : Int} (hvalue : digitsValue es = e.natAbs) :
    Spells (d :: (pointed ds ++ 'e' :: exponentSign (e < 0) :: es))
      (digitsValue (d :: ds) * 10 ^ (e - ds.length)) := by
  have hwhole : IsWhole [d] :=
    isWhole_of_lead ⟨fun c hc => hrun.digits c (by simp_all), List.cons_ne_nil _ _⟩ (by simpa using hlead)
  refine (spells_exponent hwhole (fun c hc => hrun.digits c (List.mem_cons_of_mem _ hc)) (e < 0) he).of_eq ?_
  have hexponent : (if decide (e < 0) = true then -(digitsValue es : Int) else digitsValue es) = e := by
    rw [hvalue]
    simp only [decide_eq_true_eq]
    split_ifs <;> omega
  rw [hexponent, List.singleton_append]

/-- The layout of digits spells them with the point in its place. -/
theorem spells_layout (hrun : IsRun core) (hlead : core.head? ≠ some '0') (point : Int) :
    Spells (layout core point) (digitsValue core * 10 ^ (point - core.length)) := by
  unfold layout
  split_ifs with hplain hsmall hwhole
  · refine (spells_small hrun (-point).toNat).of_eq ?_
    rw [Int.toNat_of_nonneg (by omega), neg_neg]
  · refine (spells_large hrun hlead (point.toNat - core.length)).of_eq ?_
    rw [Nat.cast_sub hwhole, Int.toNat_of_nonneg (by omega)]
  · rw [List.append_assoc]
    refine (spells_middle hrun hlead (n := point.toNat) (by omega) (by omega)).of_eq ?_
    rw [Int.toNat_of_nonneg (by omega)]
  · obtain ⟨d, ds, rfl⟩ := List.exists_cons_of_ne_nil hrun.ne_nil
    have hexponent := isRun_exponent (point - 1).natAbs
    have hspells := (spells_scientific hrun (by simpa using hlead) hexponent.1 hexponent.2).of_eq
      (b := digitsValue (d :: ds) * 10 ^ (point - (d :: ds).length)) (by
        rw [List.length_cons]
        congr 2
        push_cast
        ring)
    have hsign : (if point - 1 < 0 then '-' else '+') = exponentSign (point - 1 < 0) := by
      simp [exponentSign]
    simp only [hsign]
    cases ds <;> simpa [pointed] using hspells

variable {m : Nat} {e : Int}

/-- Digits without their trailing zeros, and the zeros. -/
theorem exists_zeros (ds : List Char) :
    ∃ k, ds = withoutTrailingZeros ds ++ List.replicate k '0' := by
  refine ⟨(ds.reverse.takeWhile (· == '0')).length, ?_⟩
  have hzeros : (ds.reverse.takeWhile (· == '0')).reverse =
      List.replicate (ds.reverse.takeWhile (· == '0')).length '0' := by
    refine List.eq_replicate_iff.mpr ⟨List.length_reverse, fun c hc => ?_⟩
    simpa using List.mem_takeWhile_imp (List.mem_reverse.mp hc)
  rw [withoutTrailingZeros, ← hzeros, ← List.reverse_append, List.takeWhile_append_dropWhile,
    List.reverse_reverse]

/-- A number's layout is read as the number. -/
theorem spells_shortest (hn : IsNormal m e) (hm : m ≠ 0) :
    Spells (layout (withoutTrailingZeros (Nat.toDigits 10 (shortest m e).digits))
        ((Nat.toDigits 10 (shortest m e).digits).length + (shortest m e).exponent))
      ((shortest m e).digits * 10 ^ (shortest m e).exponent) := by
  have hdigits := ne_zero_of_contains hm (contains_shortest hn hm)
  obtain ⟨k, hk⟩ := exists_zeros (Nat.toDigits 10 (shortest m e).digits)
  have hlead := head?_toDigits hdigits
  have hvalue := digitsValue_toDigits (shortest m e).digits
  have hall : ∀ c ∈ Nat.toDigits 10 (shortest m e).digits, isDigit c := fun c => isDigit_of_mem_toDigits
  generalize Nat.toDigits 10 (shortest m e).digits = digits at *
  generalize withoutTrailingZeros digits = core at *
  subst hk
  have hne : core ≠ [] := by
    rintro rfl
    rw [List.nil_append, digitsValue_replicate] at hvalue
    exact hdigits hvalue.symm
  rw [List.head?_append_of_ne_nil _ hne] at hlead
  refine (spells_layout ⟨fun c hc => hall c (List.mem_append_left _ hc), hne⟩ hlead _).of_eq ?_
  rw [← hvalue, digitsValue_append_zeros, List.length_append, List.length_replicate]
  push_cast
  rw [mul_comm ((10 : ℚ) ^ k), mul_assoc, ← zpow_natCast, ← zpow_add₀ (by norm_num)]
  congr 2
  ring

/-- The digits of a finite number, without its sign. -/
def unsigned (m : Nat) (e : Int) : List Char :=
  if m = 0 then ['0', '.', '0']
  else layout (withoutTrailingZeros (Nat.toDigits 10 (shortest m e).digits))
    ((Nat.toDigits 10 (shortest m e).digits).length + (shortest m e).exponent)

theorem toList_writtenFloat (negative : Bool) (m : Nat) (e : Int) :
    (writtenFloat (.finite negative m e)).toList = signed negative (unsigned m e) := by
  rw [writtenFloat, Binary64.written, String.toList_ofList]
  · rfl
  all_goals simp

theorem lead_unsigned (hn : IsNormal m e) : ∃ d ds, unsigned m e = d :: ds ∧ isDigit d := by
  unfold unsigned
  split
  · exact ⟨'0', _, rfl, by decide⟩
  · next hm => exact (spells_shortest hn hm).lead

/-- A floating-point number that is written is read back. -/
theorem readNumber_float {negative : Bool} {rest : List Char} (hn : IsNormal m e) (h : EndsNumber rest) :
    readNumber ((writtenFloat (.finite negative m e)).toList ++ rest) =
      .ok ⟨.float (.finite negative m e), rest⟩ := by
  rw [toList_writtenFloat, unsigned]
  split
  · next hm =>
    subst hm
    have hzero : e = leastExponent := hn.full.resolve_left (by simp [precision])
    have hspells : Spells ['0', '.', '0'] 0 := (spells_fraction isWhole_zero isWhole_zero.toIsRun).of_eq
      (by
        have : digitsValue (['0'] ++ ['0']) = 0 := by decide
        rw [this, Nat.cast_zero, zero_mul])
    obtain ⟨digits, exponent, hamount, hread⟩ := hspells.read negative rest h
    have hdigits : digits = 0 := by
      have := (mul_eq_zero.mp hamount).resolve_right (zpow_ne_zero _ (by norm_num))
      exact_mod_cast this
    rw [hread, hdigits, hzero]
    simp [ofDecimal]
  · next hm =>
    obtain ⟨digits, exponent, hamount, hread⟩ := (spells_shortest hn hm).read negative rest h
    rw [hread, ofDecimal_shortest negative hn hm hamount]

end Layout

end QueryLint.Data.Json
