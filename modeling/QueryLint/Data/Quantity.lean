import QueryLint.Data.Value

/-!
# Comparing numbers

Truth values, integers and floating-point numbers are compared by what they amount to, exactly.
True amounts to one and false to zero.
-/
namespace QueryLint.Data

/-- What a number amounts to. -/
inductive Quantity where
  | negativeInfinity
  /-- A fraction whose denominator is positive. -/
  | ratio (numerator : Int) (denominator : Nat)
  | positiveInfinity
  | undefined

namespace Quantity

/-- Whether one quantity is less than another. Nothing compares with an undefined one. -/
def lt : Quantity → Quantity → Bool
  | undefined, _ => false
  | _, undefined => false
  | negativeInfinity, negativeInfinity => false
  | negativeInfinity, _ => true
  | _, negativeInfinity => false
  | positiveInfinity, _ => false
  | _, positiveInfinity => true
  | ratio n d, ratio n' d' => n * d' < n' * d

/-- Whether two quantities are equal. An undefined one is equal to none. -/
def same : Quantity → Quantity → Bool
  | ratio n d, ratio n' d' => n * d' == n' * d
  | negativeInfinity, negativeInfinity => true
  | positiveInfinity, positiveInfinity => true
  | _, _ => false

end Quantity

/-- What a floating-point number amounts to. -/
def Binary64.quantity : Binary64 → Quantity
  | finite negative m e =>
    let x := Fraction.scaled m 2 e
    .ratio (if negative then -x.numerator else x.numerator) x.denominator
  | infinite negative => if negative then .negativeInfinity else .positiveInfinity
  | nan => .undefined

/-- What a value amounts to, if it is a truth value or a number. -/
def Value.quantity? : Value → Option Quantity
  | bool b => some (.ratio (if b then 1 else 0) 1)
  | int n => some (.ratio n 1)
  | float x => some x.quantity
  | _ => Option.none

end QueryLint.Data
