import QueryLint.Text.Blank
import QueryLint.Text.Digit

/-!
# Integers written in a text

Blanks around the number are left aside, but the four information separators are none here. A sign
may come first; then digits of any script, with single underscores between them where wanted. A
number of more than 4300 digits is refused.
-/
namespace QueryLint.Text

/-- Why a text is no integer. -/
inductive IntegerFault where
  | malformed
  | tooLong (digits : Nat)
  deriving DecidableEq, Repr

/-- The most digits that are read. -/
def integerDigitLimit : Nat := 4300

/-- The wording for a number that has too many digits. -/
def tooManyDigits (digits : Nat) : String :=
  s!"Exceeds the limit ({integerDigitLimit} digits) for integer string conversion: " ++
    s!"value has {digits} digits; use sys.set_int_max_str_digits() to increase the limit"

/-- The digits of a number, an underscore allowed between any two. -/
def digitRun : List Char → Option (List Nat)
  | [] => none
  | [c] => (digitValue? c).map ([·])
  | c :: '_' :: rest => do return (← digitValue? c) :: (← digitRun rest)
  | c :: rest => do return (← digitValue? c) :: (← digitRun rest)

def digitsToNat (digits : List Nat) : Nat := digits.foldl (fun n d => 10 * n + d) 0

/-- Whether a character may stand around a number: a blank that is no information separator. -/
def isMargin (c : Char) : Bool := isBlank c && !(0x1C ≤ c.toNat && c.toNat ≤ 0x1F)

def readInteger (s : String) : Except IntegerFault Int :=
  let (negative, digits) := match trimWhile isMargin s.toList with
    | '-' :: rest => (true, rest)
    | '+' :: rest => (false, rest)
    | rest => (false, rest)
  match digitRun digits with
  | none => .error .malformed
  | some ds =>
    if ds.length > integerDigitLimit then .error (.tooLong ds.length)
    else .ok (if negative then -(digitsToNat ds : Int) else digitsToNat ds)

end QueryLint.Text
