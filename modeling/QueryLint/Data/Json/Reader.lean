import QueryLint.Data.Value
import QueryLint.Text.Integer

/-!
# Reading JSON

JSON text as values. The reader works on the characters that are left, and each step hands on what
it leaves. It accepts `NaN`, `Infinity` and `-Infinity` as numbers; of members with equal keys the
last one counts.

An error is noted together with the characters that were left where it lies, so its position is
the number of characters before them. Numbers of too many digits are refused with an error that
has no position.
-/
namespace QueryLint.Data.Json

open QueryLint.Text

/-- What is wrong with a text that is no JSON. -/
inductive Flaw where
  | byteOrderMark
  | noValue
  | noPropertyName
  | noColon
  | noComma
  | extraData
  | unterminatedText
  | controlCharacter
  | invalidEscape
  | invalidUnicodeEscape
  deriving DecidableEq, Repr

def Flaw.message : Flaw → String
  | .byteOrderMark => "Unexpected UTF-8 BOM (decode using utf-8-sig)"
  | .noValue => "Expecting value"
  | .noPropertyName => "Expecting property name enclosed in double quotes"
  | .noColon => "Expecting ':' delimiter"
  | .noComma => "Expecting ',' delimiter"
  | .extraData => "Extra data"
  | .unterminatedText => "Unterminated string starting at"
  | .controlCharacter => "Invalid control character at"
  | .invalidEscape => "Invalid \\escape"
  | .invalidUnicodeEscape => "Invalid \\uXXXX escape"

/-- Why a text cannot be read. -/
inductive Stop where
  /-- A flaw, and the characters left where it lies. -/
  | flaw (what : Flaw) (left : List Char)
  /-- A number with too many digits. -/
  | tooManyDigits (digits : Nat)

/-- A part that was read, and the characters after it. -/
structure Read (α : Type) where
  part : α
  rest : List Char

/-- The characters that may stand between the parts of a JSON text. -/
def isSpace (c : Char) : Bool := c = ' ' || c = '\t' || c = '\n' || c = '\r'

def skipSpace (cs : List Char) : List Char := cs.dropWhile isSpace

/-- Whether a character is one of the ten ASCII digits. -/
def isDigit (c : Char) : Bool := '0' ≤ c && c ≤ '9'

def digitsValue (ds : List Char) : Nat := ds.foldl (fun n c => 10 * n + (c.toNat - 48)) 0

def hexValue? (c : Char) : Option Nat :=
  if isDigit c then some (c.toNat - 48)
  else if 'a' ≤ c ∧ c ≤ 'f' then some (c.toNat - 87)
  else if 'A' ≤ c ∧ c ≤ 'F' then some (c.toNat - 55)
  else none

def hexNumber? (a b c d : Char) : Option Nat := do
  return ((← hexValue? a) * 16 + (← hexValue? b)) * 256 + ((← hexValue? c) * 16 + (← hexValue? d))

/-- The number if it is the high half of a pair of escapes. -/
def highHalf? (n : Nat) : Option Nat := if 0xD800 ≤ n ∧ n ≤ 0xDBFF then some n else none

/-- The number if it is the low half of a pair of escapes. -/
def lowHalf? (n : Nat) : Option Nat := if 0xDC00 ≤ n ∧ n ≤ 0xDFFF then some n else none

def joinHalves (high low : Nat) : Char :=
  .ofNat (0x10000 + (high - 0xD800) * 0x400 + (low - 0xDC00))

/-- The character of an escape by itself. A half stands for a character that is not known. -/
def characterOf (n : Nat) : Char :=
  if (highHalf? n).isSome ∨ (lowHalf? n).isSome then '\uFFFD' else .ofNat n

/-- The characters read so far, backwards, with one more that is escaped. If the last of them was a
high half and this is a low one, the two make one character. -/
def addEscape (read : List Char) (high : Option Nat) (n : Nat) : List Char :=
  match high, lowHalf? n with
  | some h, some low => joinHalves h low :: read.tail
  | _, _ => characterOf n :: read

def shortEscape? (c : Char) : Option Char :=
  match c with
  | '"' => some '"'
  | '\\' => some '\\'
  | '/' => some '/'
  | 'b' => some '\x08'
  | 'f' => some '\x0c'
  | 'n' => some '\n'
  | 'r' => some '\r'
  | 't' => some '\t'
  | _ => none

/-- The text whose characters begin here, up to its closing quote. `opening` is what was left at
its opening quote. Characters read so far are kept backwards, together with the high half that the
last of them was. An escape by number has to be followed by a character more. -/
def readText (opening read : List Char) (high : Option Nat) :
    List Char → Except Stop (Read String)
  | [] => .error (.flaw .unterminatedText opening)
  | ['\\'] => .error (.flaw .unterminatedText opening)
  | '"' :: rest => .ok ⟨String.ofList read.reverse, rest⟩
  | '\\' :: 'u' :: a :: b :: c :: d :: rest =>
    match rest.isEmpty, hexNumber? a b c d with
    | false, some n => readText opening (addEscape read high n) (highHalf? n) rest
    | _, _ => .error (.flaw .invalidUnicodeEscape ('u' :: a :: b :: c :: d :: rest))
  | '\\' :: 'u' :: rest => .error (.flaw .invalidUnicodeEscape ('u' :: rest))
  | '\\' :: e :: rest =>
    match shortEscape? e with
    | some x => readText opening (x :: read) none rest
    | none => .error (.flaw .invalidEscape ('\\' :: e :: rest))
  | c :: rest =>
    if c.toNat < 0x20 then .error (.flaw .controlCharacter (c :: rest))
    else readText opening (c :: read) none rest

/-- The whole part of a number: a lone zero, or digits that begin with another one. -/
def wholePart? : List Char → Option (Read (List Char))
  | '0' :: rest => some ⟨['0'], rest⟩
  | cs =>
    match cs.takeWhile isDigit with
    | [] => none
    | ds => some ⟨ds, cs.dropWhile isDigit⟩

/-- The digits after a decimal point, none if there is no point with a digit after it. -/
def fractionPart (cs : List Char) : Read (List Char) :=
  match cs with
  | '.' :: rest =>
    match rest.takeWhile isDigit with
    | [] => ⟨[], cs⟩
    | ds => ⟨ds, rest.dropWhile isDigit⟩
  | _ => ⟨[], cs⟩

/-- The exponent at the front, if there is a whole one. -/
def exponentPart? (cs : List Char) : Option (Read Int) :=
  match cs with
  | e :: rest =>
    if e = 'e' ∨ e = 'E' then
      let (negative, digits) := match rest with
        | '-' :: more => (true, more)
        | '+' :: more => (false, more)
        | more => (false, more)
      match digits.takeWhile isDigit with
      | [] => none
      | ds =>
        let n : Int := digitsValue ds
        some ⟨if negative then -n else n, digits.dropWhile isDigit⟩
    else none
  | [] => none

/-- A number. One with a fraction or an exponent is floating-point. -/
def readNumber (cs : List Char) : Except Stop (Read Value) :=
  let (negative, body) := match cs with
    | '-' :: rest => (true, rest)
    | rest => (false, rest)
  match wholePart? body with
  | none => .error (.flaw .noValue cs)
  | some ⟨whole, afterWhole⟩ =>
    let fraction := fractionPart afterWhole
    match fraction.part, exponentPart? fraction.rest with
    | [], none =>
      if whole.length > integerDigitLimit then .error (.tooManyDigits whole.length)
      else
        let n : Int := digitsValue whole
        .ok ⟨.int (if negative then -n else n), afterWhole⟩
    | ds, exponent =>
      let e := (exponent.map (·.part)).getD 0
      .ok ⟨.float (.ofDecimal negative (digitsValue (whole ++ ds)) (e - ds.length)),
        (exponent.map (·.rest)).getD fraction.rest⟩

/-- The words that stand for values. -/
def words : List (String × Value) :=
  [("null", .null), ("true", .bool true), ("false", .bool false), ("NaN", .float .nan),
   ("Infinity", .float (.infinite false)), ("-Infinity", .float (.infinite true))]

def readWord? (cs : List Char) : Option (Read Value) :=
  words.findSome? fun w =>
    if w.1.toList.isPrefixOf cs then some ⟨w.2, cs.drop w.1.length⟩ else none

mutual

/-- The value at the front. The first argument bounds the number of steps. -/
def readValue : Nat → List Char → Except Stop (Read Value)
  | 0, cs => .error (.flaw .noValue cs)
  | steps + 1, cs =>
    match cs with
    | '"' :: rest =>
      match readText cs [] none rest with
      | .ok r => .ok ⟨.text r.part, r.rest⟩
      | .error stop => .error stop
    | '[' :: rest =>
      match skipSpace rest with
      | ']' :: after => .ok ⟨.list [], after⟩
      | inner => readItems [] steps inner
    | '\x7b' :: rest =>
      match skipSpace rest with
      | '\x7d' :: after => .ok ⟨.object [], after⟩
      | inner => readMembers [] steps inner
    | _ =>
      match readWord? cs with
      | some r => .ok r
      | none => readNumber cs

/-- The items of a list up to its closing bracket, behind those that were read, which are kept
backwards. -/
def readItems (read : List Value) : Nat → List Char → Except Stop (Read Value)
  | 0, cs => .error (.flaw .noValue cs)
  | steps + 1, cs =>
    match readValue steps cs with
    | .error stop => .error stop
    | .ok item =>
      match skipSpace item.rest with
      | ']' :: after => .ok ⟨.list (item.part :: read).reverse, after⟩
      | ',' :: after => readItems (item.part :: read) steps (skipSpace after)
      | left => .error (.flaw .noComma left)

/-- The members of an object up to its closing brace, behind those that were read, which are kept
backwards. -/
def readMembers (read : List (String × Value)) : Nat → List Char → Except Stop (Read Value)
  | 0, cs => .error (.flaw .noPropertyName cs)
  | steps + 1, cs =>
    match cs with
    | '"' :: rest =>
      match readText cs [] none rest with
      | .error stop => .error stop
      | .ok key =>
        match skipSpace key.rest with
        | ':' :: afterColon =>
          match readValue steps (skipSpace afterColon) with
          | .error stop => .error stop
          | .ok value =>
            match skipSpace value.rest with
            | '\x7d' :: after =>
              .ok ⟨.object (Members.ofList ((key.part, value.part) :: read).reverse), after⟩
            | ',' :: after =>
              readMembers ((key.part, value.part) :: read) steps (skipSpace after)
            | left => .error (.flaw .noComma left)
        | left => .error (.flaw .noColon left)
    | _ => .error (.flaw .noPropertyName cs)

end

/-- The value that the characters spell, with space around it where wanted. -/
def readChars (cs : List Char) : Except Stop Value :=
  match cs with
  | '\uFEFF' :: _ => .error (.flaw .byteOrderMark cs)
  | _ =>
    match readValue (2 * cs.length + 2) (skipSpace cs) with
    | .error stop => .error stop
    | .ok r =>
      match skipSpace r.rest with
      | [] => .ok r.part
      | left => .error (.flaw .extraData left)

/-- Why a text is no JSON: a flaw at a character, with its line and column, or a number of too
many digits. Lines and columns count from one. -/
inductive Fault where
  | flaw (what : Flaw) (offset line column : Nat)
  | tooManyDigits (digits : Nat)
  deriving DecidableEq, Repr

def Fault.message : Fault → String
  | .flaw what offset line column =>
    s!"{what.message}: line {line} column {column} (char {offset})"
  | .tooManyDigits digits => Text.tooManyDigits digits

/-- A flaw in its text, which is split where the flaw lies. -/
def Fault.at (what : Flaw) (before : List Char) : Fault :=
  .flaw what before.length (before.count '\n' + 1)
    ((before.reverse.takeWhile (· != '\n')).length + 1)

def read (s : String) : Except Fault Value :=
  let cs := s.toList
  match readChars cs with
  | .ok v => .ok v
  | .error (.flaw what left) => .error (.at what (cs.take (cs.length - left.length)))
  | .error (.tooManyDigits digits) => .error (.tooManyDigits digits)

end QueryLint.Data.Json
