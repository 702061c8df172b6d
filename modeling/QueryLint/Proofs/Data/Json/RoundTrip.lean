import QueryLint.Proofs.Data.Alike
import QueryLint.Proofs.Data.Json.Numbers
import QueryLint.Proofs.Data.Json.Texts

/-!
# Values in JSON

A value that is written is read back, at any depth and with any indentation, if it holds each key once and
its numbers can be written. The steps that the reader may take are always enough: twice as many as there are
characters.
-/
namespace QueryLint.Data

open QueryLint.Text (integerDigitLimit)

/-- Whether a value, if it is a number, can be written: an integer that has no more digits than are read, or a
floating-point number that there is. -/
def Value.HasWrittenForm : Value → Prop
  | .int n => (Nat.toDigits 10 n.natAbs).length ≤ integerDigitLimit
  | .float (.finite _ m e) => Binary64.IsNormal m e
  | _ => True

/-- Whether all numbers in a value can be written. -/
def Value.IsWritable : Value → Prop := Value.Everywhere Value.HasWrittenForm

namespace Json

/-- Characters that are read as a value, whatever comes behind them and ends it. -/
structure Reads (cs : List Char) (v : Value) : Prop where
  lead : ∃ c more, cs = c :: more ∧ isSpace c = false ∧ c ≠ ']' ∧ c ≠ '\uFEFF'
  read : ∀ rest, EndsNumber rest → ∀ steps, 2 * (cs ++ rest).length < steps →
    readValue steps (cs ++ rest) = .ok ⟨v, rest⟩

/-! ### Words, numbers and texts -/

section Simple

variable {d : Char} {cs rest : List Char}

theorem isDigit_ne {c : Char} (hd : isDigit d) (hc : isDigit c = false) : d ≠ c := by
  rintro rfl
  rw [hd] at hc
  cases hc

/-- What begins with a digit, or with a sign and a digit, is read as a number. -/
theorem readValue_number (hd : isDigit d) (negative : Bool) (steps : Nat) (cs : List Char) :
    readValue (steps + 1) (signed negative (d :: cs)) = readNumber (signed negative (d :: cs)) := by
  have hword : readWord? (signed negative (d :: cs)) = none := by
    have hn := isDigit_ne hd (c := 'n') (by decide)
    have ht := isDigit_ne hd (c := 't') (by decide)
    have hf := isDigit_ne hd (c := 'f') (by decide)
    have hN := isDigit_ne hd (c := 'N') (by decide)
    have hI := isDigit_ne hd (c := 'I') (by decide)
    have hm := isDigit_ne hd (c := '-') (by decide)
    refine List.findSome?_eq_none_iff.mpr fun w hw => if_neg ?_
    simp only [words, List.mem_cons, List.not_mem_nil, or_false] at hw
    rcases hw with rfl | rfl | rfl | rfl | rfl | rfl <;> cases negative <;>
      simp [signed, List.isPrefixOf_cons_cons, hn.symm, ht.symm, hf.symm, hN.symm, hI.symm, hm.symm]
  have hq := isDigit_ne hd (c := '"') (by decide)
  have hb := isDigit_ne hd (c := '[') (by decide)
  have ho := isDigit_ne hd (c := '\x7b') (by decide)
  cases negative <;> simp_all [readValue, signed]

/-- A word is read as its value. -/
theorem readValue_word {w : String × Value} (hw : w ∈ words) (steps : Nat) (rest : List Char) :
    readValue (steps + 1) (w.1.toList ++ rest) = .ok ⟨w.2, rest⟩ := by
  simp only [words, List.mem_cons, List.not_mem_nil, or_false] at hw
  rcases hw with rfl | rfl | rfl | rfl | rfl | rfl <;> rfl

theorem reads_word {w : String × Value} (hw : w ∈ words) : Reads w.1.toList w.2 where
  lead := by
    simp only [words, List.mem_cons, List.not_mem_nil, or_false] at hw
    rcases hw with rfl | rfl | rfl | rfl | rfl | rfl <;> exact ⟨_, _, rfl, by decide, by decide, by decide⟩
  read rest _ steps hsteps := by
    obtain ⟨steps, rfl⟩ := Nat.exists_eq_add_of_lt hsteps
    exact readValue_word hw _ rest

/-- Characters that are read as a number are read as a value. -/
theorem reads_number {v : Value} (hd : isDigit d) (negative : Bool)
    (h : ∀ rest, EndsNumber rest → readNumber (signed negative (d :: cs) ++ rest) = .ok ⟨v, rest⟩) :
    Reads (signed negative (d :: cs)) v where
  lead := by
    have hspace : isSpace d = false := by
      simp [isSpace, isDigit_ne hd (c := ' ') (by decide), isDigit_ne hd (c := '\t') (by decide),
        isDigit_ne hd (c := '\n') (by decide), isDigit_ne hd (c := '\r') (by decide)]
    cases negative with
    | false => exact ⟨d, cs, rfl, hspace, isDigit_ne hd (by decide), isDigit_ne hd (by decide)⟩
    | true => exact ⟨'-', d :: cs, rfl, by decide, by decide, by decide⟩
  read rest hrest steps hsteps := by
    obtain ⟨steps, rfl⟩ := Nat.exists_eq_add_of_lt hsteps
    rw [← h rest hrest, ← signed_append, List.cons_append]
    exact readValue_number hd negative _ _

theorem reads_int {n : Int} (hn : (Nat.toDigits 10 n.natAbs).length ≤ integerDigitLimit) :
    Reads (toString n).toList (.int n) := by
  have hread (rest : List Char) (hrest : EndsNumber rest) := readNumber_int hn hrest
  rw [toList_toString] at hread ⊢
  have hrun := isWhole_toDigits n.natAbs
  obtain ⟨d, ds, heq⟩ := List.exists_cons_of_ne_nil hrun.ne_nil
  rw [heq] at hread hrun ⊢
  exact reads_number (hrun.digits d List.mem_cons_self) _ hread

theorem reads_float {x : Binary64} (hx : Value.HasWrittenForm (.float x)) :
    Reads (writtenFloat x).toList (.float x) := by
  cases x with
  | nan => exact reads_word (w := ("NaN", .float .nan)) (by simp [words])
  | infinite negative =>
    cases negative with
    | false => exact reads_word (w := ("Infinity", .float (.infinite false))) (by simp [words])
    | true => exact reads_word (w := ("-Infinity", .float (.infinite true))) (by simp [words])
  | finite negative m e =>
    have hread (rest : List Char) (hrest : EndsNumber rest) :
        readNumber ((writtenFloat (.finite negative m e)).toList ++ rest) =
          .ok ⟨.float (.finite negative m e), rest⟩ := readNumber_float hx hrest
    rw [toList_writtenFloat] at hread ⊢
    obtain ⟨d, ds, heq, hd⟩ := lead_unsigned (m := m) (e := e) hx
    rw [heq] at hread ⊢
    exact reads_number hd negative hread

theorem reads_text (s : String) : Reads (writtenText s).toList (.text s) where
  lead := ⟨'"', _, toList_writtenText s, by decide, by decide, by decide⟩
  read rest _ steps hsteps := by
    obtain ⟨steps, rfl⟩ := Nat.exists_eq_add_of_lt hsteps
    rw [toList_writtenText, List.cons_append, List.append_assoc, List.singleton_append, readValue,
      readText_written]
    simp

end Simple

/-! ### Lists and objects -/

/-- Some characters that may stand between the parts of a JSON text. -/
def IsBlank (cs : List Char) : Prop := ∀ c ∈ cs, isSpace c

section Parts

variable {cs gap trail rest after : List Char} {texts : List (List Char)} {vs : List Value}

theorem skipSpace_append (h : IsBlank gap) (cs : List Char) : skipSpace (gap ++ cs) = skipSpace cs :=
  List.dropWhile_append_of_pos h

theorem skipSpace_cons {c : Char} (hc : isSpace c = false) (cs : List Char) :
    skipSpace (c :: cs) = c :: cs :=
  List.dropWhile_cons_of_neg (by simp [hc])

/-- What follows spaces and is no part of a number does not continue one. -/
theorem endsNumber_append (h : IsBlank gap) (hrest : EndsNumber rest) : EndsNumber (gap ++ rest) := by
  cases gap with
  | nil => exact hrest
  | cons c gap =>
    rintro _ ⟨⟩
    have hc := h c List.mem_cons_self
    simp only [isSpace, Bool.or_eq_true, decide_eq_true_eq] at hc
    rcases hc with ((rfl | rfl) | rfl) | rfl <;> decide

theorem endsNumber_cons {c : Char} (hc : c = ',' ∨ c = ']' ∨ c = '\x7d') (cs : List Char) :
    EndsNumber (c :: cs) := by
  rintro _ ⟨⟩
  rcases hc with rfl | rfl | rfl <;> decide

/-- Parts with commas between them. -/
def joined (gap : List Char) (texts : List (List Char)) : List Char := (',' :: gap).intercalate texts

theorem joined_cons {t : List Char} (hne : texts ≠ []) :
    joined gap (t :: texts) = t ++ ',' :: (gap ++ joined gap texts) := by
  rw [joined, List.intercalate_cons_of_ne_nil hne, List.append_assoc, List.cons_append]
  rfl

theorem joined_singleton (t : List Char) : joined gap [t] = t := List.intercalate_singleton

theorem lead_joined {t : List Char} {c : Char} {more : List Char} (gap : List Char)
    (texts : List (List Char)) (h : t = c :: more) : ∃ more, joined gap (t :: texts) = c :: more := by
  subst h
  cases texts with
  | nil => exact ⟨more, joined_singleton _⟩
  | cons t' texts => exact ⟨_, joined_cons (List.cons_ne_nil _ _)⟩

/-- Items that are each read are read one after the other up to the closing bracket. -/
theorem readItems_joined (hgap : IsBlank gap) (htrail : IsBlank trail) (h : List.Forall₂ Reads texts vs)
    (hne : texts ≠ []) (read : List Value) (steps : Nat)
    (hsteps : 2 * (joined gap texts ++ (trail ++ ']' :: rest)).length + 1 < steps) :
    readItems read steps (joined gap texts ++ (trail ++ ']' :: rest)) =
      .ok ⟨.list (read.reverse ++ vs), rest⟩ := by
  induction h generalizing read steps with
  | nil => exact absurd rfl hne
  | @cons t v texts vs ht htexts ih =>
    obtain ⟨steps, rfl⟩ : ∃ n, steps = n + 1 := ⟨steps - 1, by omega⟩
    cases htexts with
    | nil =>
      rw [joined_singleton] at hsteps ⊢
      have hread := ht.read (trail ++ ']' :: rest)
        (endsNumber_append htrail (endsNumber_cons (by decide) rest)) steps (by omega)
      rw [readItems, hread]
      simp [skipSpace_append htrail, skipSpace_cons (c := ']') (by decide)]
    | @cons t' v' texts vs ht' htexts =>
      obtain ⟨c, more, ht'eq, hspace, -⟩ := ht'.lead
      obtain ⟨more, hjoined⟩ := lead_joined gap texts ht'eq
      rw [joined_cons (List.cons_ne_nil _ _), List.append_assoc, List.cons_append, List.append_assoc]
        at hsteps ⊢
      have hread := ht.read (',' :: (gap ++ (joined gap (t' :: texts) ++ (trail ++ ']' :: rest))))
        (endsNumber_cons (by decide) _) steps (by omega)
      have hskip : skipSpace (gap ++ (joined gap (t' :: texts) ++ (trail ++ ']' :: rest))) =
          joined gap (t' :: texts) ++ (trail ++ ']' :: rest) := by
        rw [skipSpace_append hgap, hjoined, List.cons_append, skipSpace_cons hspace]
      have hrest := ih (List.cons_ne_nil _ _) (v :: read) steps (by
        simp only [List.length_append, List.length_cons] at hsteps ⊢
        omega)
      rw [readItems, hread]
      simp only [skipSpace_cons (c := ',') (by decide), hskip]
      rw [hrest, List.reverse_cons, List.append_assoc, List.singleton_append]

/-- Characters that are read as a key and a value. -/
def ReadsMember (cs : List Char) (m : String × Value) : Prop :=
  ∃ t, cs = (writtenText m.1).toList ++ ':' :: ' ' :: t ∧ Reads t m.2

theorem ReadsMember.lead {m : String × Value} (h : ReadsMember cs m) : ∃ more, cs = '"' :: more := by
  obtain ⟨t, hcs, -⟩ := h
  exact ⟨_, by rw [hcs, toList_writtenText, List.cons_append]⟩

/-- The key of a member is read up to the colon, and its value behind it. -/
theorem ReadsMember.read {m : String × Value} (h : ReadsMember cs m) (hrest : EndsNumber rest) {steps : Nat}
    (hsteps : 2 * (cs ++ rest).length < steps + 1) : ∃ key value, cs ++ rest = '"' :: key ∧
      readText (cs ++ rest) [] none key = .ok ⟨m.1, ':' :: value⟩ ∧
      readValue steps (skipSpace value) = .ok ⟨m.2, rest⟩ := by
  obtain ⟨t, hcs, ht⟩ := h
  rw [hcs] at hsteps ⊢
  obtain ⟨c, more, hlead, hspace, -⟩ := ht.lead
  have hskip : skipSpace (' ' :: (t ++ rest)) = t ++ rest := by
    rw [← List.singleton_append, skipSpace_append (by simp [IsBlank, isSpace]), hlead, List.cons_append,
      skipSpace_cons hspace]
  refine ⟨m.1.toList.flatMap escapedChar ++ '"' :: ':' :: ' ' :: (t ++ rest), ' ' :: (t ++ rest), ?_, ?_, ?_⟩
  · simp [toList_writtenText]
  · rw [readText_written]
    simp
  · rw [hskip]
    refine ht.read rest hrest steps ?_
    simp only [List.length_append, List.length_cons] at hsteps ⊢
    omega

theorem readMembers_last {m : String × Value} (h : ReadsMember cs m) (hrest : EndsNumber rest)
    (hafter : skipSpace rest = '\x7d' :: after) (read : Members) {steps : Nat}
    (hsteps : 2 * (cs ++ rest).length < steps + 1) :
    readMembers read (steps + 1) (cs ++ rest) =
      .ok ⟨.object (Members.ofList (m :: read).reverse), after⟩ := by
  obtain ⟨key, value, heq, hkey, hvalue⟩ := h.read hrest hsteps
  rw [heq] at hkey ⊢
  rw [readMembers, hkey]
  simp [skipSpace_cons (c := ':') (by decide), hvalue, hafter]

theorem readMembers_next {m : String × Value} (h : ReadsMember cs m) (hrest : EndsNumber rest)
    (hafter : skipSpace rest = ',' :: after) (read : Members) {steps : Nat}
    (hsteps : 2 * (cs ++ rest).length < steps + 1) :
    readMembers read (steps + 1) (cs ++ rest) = readMembers (m :: read) steps (skipSpace after) := by
  obtain ⟨key, value, heq, hkey, hvalue⟩ := h.read hrest hsteps
  rw [heq] at hkey ⊢
  rw [readMembers, hkey]
  simp [skipSpace_cons (c := ':') (by decide), hvalue, hafter]

/-- Members that are each read are read one after the other up to the closing brace. -/
theorem readMembers_joined {ms : Members} (hgap : IsBlank gap) (htrail : IsBlank trail)
    (h : List.Forall₂ ReadsMember texts ms) (hne : texts ≠ []) (read : Members) (steps : Nat)
    (hsteps : 2 * (joined gap texts ++ (trail ++ '\x7d' :: rest)).length + 1 < steps) :
    readMembers read steps (joined gap texts ++ (trail ++ '\x7d' :: rest)) =
      .ok ⟨.object (Members.ofList (read.reverse ++ ms)), rest⟩ := by
  induction h generalizing read steps with
  | nil => exact absurd rfl hne
  | @cons t m texts ms ht htexts ih =>
    obtain ⟨steps, rfl⟩ : ∃ n, steps = n + 1 := ⟨steps - 1, by omega⟩
    cases htexts with
    | nil =>
      rw [joined_singleton] at hsteps ⊢
      have hafter : skipSpace (trail ++ '\x7d' :: rest) = '\x7d' :: rest := by
        rw [skipSpace_append htrail, skipSpace_cons (by decide)]
      rw [readMembers_last ht (endsNumber_append htrail (endsNumber_cons (by decide) rest)) hafter _
        (by omega), List.reverse_cons]
    | @cons t' m' texts ms ht' htexts =>
      obtain ⟨more, ht'eq⟩ := ht'.lead
      obtain ⟨more, hjoined⟩ := lead_joined gap texts ht'eq
      rw [joined_cons (List.cons_ne_nil _ _), List.append_assoc, List.cons_append, List.append_assoc]
        at hsteps ⊢
      have hskip : skipSpace (gap ++ (joined gap (t' :: texts) ++ (trail ++ '\x7d' :: rest))) =
          joined gap (t' :: texts) ++ (trail ++ '\x7d' :: rest) := by
        rw [skipSpace_append hgap, hjoined, List.cons_append, skipSpace_cons (by decide)]
      have hrest := ih (List.cons_ne_nil _ _) (m :: read) steps (by
        simp only [List.length_append, List.length_cons] at hsteps ⊢
        omega)
      rw [readMembers_next ht (endsNumber_cons (by decide) _) (skipSpace_cons (by decide) _) _ (by omega),
        hskip, hrest, List.reverse_cons, List.append_assoc, List.singleton_append]

/-- The parts of a list or an object stand between its marks, with spaces before, between and after them. -/
theorem exists_toList_enclosed (opening closing : String) (indent : Option Nat) (depth : Nat)
    {parts : List String} (hne : parts ≠ []) : ∃ lead gap trail, IsBlank lead ∧ IsBlank gap ∧ IsBlank trail ∧
      (enclosed opening closing indent depth parts).toList = opening.toList ++
        (lead ++ (joined gap (parts.map String.toList) ++ (trail ++ closing.toList))) := by
  have hline : ∀ n, IsBlank ('\n' :: List.replicate n ' ') := by
    intro n c hc
    rcases List.mem_cons.mp hc with rfl | hc
    · decide
    · rw [List.eq_of_mem_replicate hc]
      decide
  have hempty : parts.isEmpty = false := by simpa using hne
  unfold enclosed
  rw [hempty]
  cases indent with
  | none =>
    refine ⟨[], [' '], [], by simp [IsBlank], by simp [IsBlank, isSpace], by simp [IsBlank], ?_⟩
    simp [joined]
  | some width =>
    refine ⟨_, _, _, hline (width * (depth + 1)), hline (width * (depth + 1)), hline (width * depth), ?_⟩
    simp [joined]

theorem readValue_list {c : Char} (h : skipSpace cs = c :: after) (hc : c ≠ ']') (steps : Nat) :
    readValue (steps + 1) ('[' :: cs) = readItems [] steps (c :: after) := by
  simp [readValue, h, hc]

theorem readValue_object {c : Char} (h : skipSpace cs = c :: after) (hc : c ≠ '\x7d') (steps : Nat) :
    readValue (steps + 1) ('\x7b' :: cs) = readMembers [] steps (c :: after) := by
  simp [readValue, h, hc]

/-- What is enclosed in marks is read if its parts are, whatever spaces stand around them. -/
theorem reads_enclosed (indent : Option Nat) (depth : Nat) {opening closing : String} {o c : Char}
    (hopening : opening.toList = [o]) (hclosing : closing.toList = [c])
    (ho : isSpace o = false ∧ o ≠ ']' ∧ o ≠ '\ufeff') {parts : List String} {v : Value}
    (hnone : parts = [] → ∀ rest steps, readValue (steps + 1) (o :: c :: rest) = .ok ⟨v, rest⟩)
    (hsome : parts ≠ [] → ∀ lead gap trail rest steps, IsBlank lead → IsBlank gap → IsBlank trail →
      2 * (joined gap (parts.map String.toList) ++ (trail ++ c :: rest)).length + 1 < steps →
      readValue (steps + 1) (o :: (lead ++ (joined gap (parts.map String.toList) ++
        (trail ++ c :: rest)))) = .ok ⟨v, rest⟩) :
    Reads (enclosed opening closing indent depth parts).toList v := by
  by_cases hparts : parts = []
  · have heq : (enclosed opening closing indent depth parts).toList = [o, c] := by
      simp [enclosed, hparts, hopening, hclosing]
    rw [heq]
    refine ⟨⟨o, [c], rfl, ho⟩, fun rest _ steps hsteps => ?_⟩
    obtain ⟨steps, rfl⟩ := Nat.exists_eq_add_of_lt hsteps
    exact hnone hparts rest _
  · obtain ⟨lead, gap, trail, hlead, hgap, htrail, heq⟩ :=
      exists_toList_enclosed opening closing indent depth hparts
    rw [heq, hopening, hclosing, List.singleton_append]
    refine ⟨⟨o, _, rfl, ho⟩, fun rest _ steps hsteps => ?_⟩
    obtain ⟨steps, rfl⟩ : ∃ n, steps = n + 1 := ⟨steps - 1, by omega⟩
    simp only [List.cons_append, List.append_assoc, List.nil_append, List.length_cons] at hsteps ⊢
    refine hsome hparts lead gap trail rest steps hlead hgap htrail ?_
    rw [List.length_append] at hsteps
    omega

/-- A list of items that are each read is read. -/
theorem reads_list (indent : Option Nat) (depth : Nat) {texts : List String} {vs : List Value}
    (h : List.Forall₂ Reads (texts.map String.toList) vs) :
    Reads (enclosed "[" "]" indent depth texts).toList (.list vs) := by
  refine reads_enclosed (o := '[') (c := ']') indent depth rfl rfl (by decide) ?_ ?_
  · rintro rfl rest steps
    cases h
    simp [readValue, skipSpace_cons (c := ']') (by decide) rest]
  · intro hne lead gap trail rest steps hlead hgap htrail hsteps
    obtain ⟨text, texts, rfl⟩ := List.exists_cons_of_ne_nil hne
    have hitems := readItems_joined hgap htrail h (List.cons_ne_nil _ _) [] steps hsteps
    cases h with
    | cons hv hvs =>
      obtain ⟨c, more, htext, hspace, hbracket, -⟩ := hv.lead
      obtain ⟨more, hjoined⟩ := lead_joined gap (texts.map String.toList) htext
      rw [List.map_cons, hjoined, List.cons_append] at hitems ⊢
      rw [readValue_list ((skipSpace_append hlead _).trans (skipSpace_cons hspace _)) hbracket, hitems]
      rfl

/-- An object of members that are each read, with each key once, is read. -/
theorem reads_object (indent : Option Nat) (depth : Nat) {texts : List String} {ms : Members}
    (hkeys : ms.keys.Nodup) (h : List.Forall₂ ReadsMember (texts.map String.toList) ms) :
    Reads (enclosed "\x7b" "\x7d" indent depth texts).toList (.object ms) := by
  refine reads_enclosed (o := '\x7b') (c := '\x7d') indent depth rfl rfl (by decide) ?_ ?_
  · rintro rfl rest steps
    cases h
    simp [readValue, skipSpace_cons (c := '\x7d') (by decide) rest]
  · intro hne lead gap trail rest steps hlead hgap htrail hsteps
    obtain ⟨text, texts, rfl⟩ := List.exists_cons_of_ne_nil hne
    have hmembers := readMembers_joined hgap htrail h (List.cons_ne_nil _ _) [] steps hsteps
    cases h with
    | cons hm hms =>
      obtain ⟨more, htext⟩ := hm.lead
      obtain ⟨more, hjoined⟩ := lead_joined gap (texts.map String.toList) htext
      rw [List.map_cons, hjoined, List.cons_append] at hmembers ⊢
      rw [readValue_object ((skipSpace_append hlead _).trans (skipSpace_cons (by decide) _)) (by decide),
        hmembers, List.reverse_nil, List.nil_append, Members.ofList_of_nodup hkeys]

end Parts

/-! ### Values -/

section Values

variable {v : Value} {indent : Option Nat}

theorem writtenItems_eq (indent : Option Nat) (depth : Nat) (vs : List Value) :
    writtenItems indent depth vs = vs.map (writtenAt indent depth) := by
  induction vs with
  | nil => rfl
  | cons v vs ih => rw [writtenItems, ih, List.map_cons]

theorem writtenMembers_eq (indent : Option Nat) (depth : Nat) (ms : Members) :
    writtenMembers indent depth ms =
      ms.map fun m => writtenText m.1 ++ ": " ++ writtenAt indent depth m.2 := by
  induction ms with
  | nil => rfl
  | cons m ms ih => rw [writtenMembers, ih, List.map_cons]

/-- A value that is written is read back. -/
theorem reads_written (indent : Option Nat) (depth : Nat) (hwritable : v.IsWritable) (htidy : v.IsTidy) :
    Reads (writtenAt indent depth v).toList v := by
  induction v using Value.children_induction generalizing depth with
  | step v ih =>
    have hform := hwritable.here
    cases v with
    | null => exact reads_word (w := ("null", .null)) (by simp [words])
    | bool b =>
      cases b with
      | true => exact reads_word (w := ("true", .bool true)) (by simp [words])
      | false => exact reads_word (w := ("false", .bool false)) (by simp [words])
    | int n => exact reads_int hform
    | float x => exact reads_float hform
    | text s => exact reads_text s
    | list vs =>
      rw [writtenAt, writtenItems_eq]
      refine reads_list indent depth ?_
      rw [List.map_map, List.forall₂_map_left_iff, List.forall₂_same]
      exact fun v hv => ih v hv (depth + 1) (hwritable.inside v hv) (htidy.inside v hv)
    | object ms =>
      rw [writtenAt, writtenMembers_eq]
      refine reads_object indent depth htidy.here ?_
      rw [List.map_map, List.forall₂_map_left_iff, List.forall₂_same]
      intro m hm
      have hm := List.mem_map_of_mem (f := Prod.snd) hm
      refine ⟨_, ?_, ih m.2 hm (depth + 1) (hwritable.inside m.2 hm) (htidy.inside m.2 hm)⟩
      simp

/-- A value that is written, with a line feed behind it, is what the text says. -/
theorem read_written (indent : Option Nat) (hwritable : v.IsWritable) (htidy : v.IsTidy) :
    read (written indent v ++ "\n") = .ok v := by
  have hreads := reads_written indent 0 hwritable htidy
  obtain ⟨c, more, hlead, hspace, -, hmark⟩ := hreads.lead
  have hchars : (written indent v ++ "\n").toList = (writtenAt indent 0 v).toList ++ ['\n'] := by
    rw [String.toList_append]
    rfl
  have hends : EndsNumber ['\n'] := by
    rintro _ ⟨⟩
    decide
  have hvalue := hreads.read ['\n'] hends (2 * ((writtenAt indent 0 v).toList ++ ['\n']).length + 2)
    (by omega)
  have hskip : skipSpace ((writtenAt indent 0 v).toList ++ ['\n']) =
      (writtenAt indent 0 v).toList ++ ['\n'] := by
    rw [hlead, List.cons_append, skipSpace_cons hspace]
  have hnone : skipSpace ['\n'] = [] := by decide
  have hread : readChars ((writtenAt indent 0 v).toList ++ ['\n']) = .ok v := by
    rw [hlead, List.cons_append] at hvalue hskip ⊢
    rw [readChars]
    · simp only [hskip, hvalue, hnone]
    · intro rest heq
      exact hmark (List.cons.inj heq).1
  simp only [read, hchars, hread]

end Values

end Json

end QueryLint.Data
