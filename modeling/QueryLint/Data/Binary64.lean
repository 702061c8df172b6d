/-!
# Binary floating-point numbers

Numbers of 64 bits, kept exactly: a finite one is `significand · 2 ^ exponent` with a sign. The
significand has at most 53 bits; it has exactly 53 unless the exponent is the least one.

A decimal is read as the nearest such number, a tie going to the even significand. A number is
written with the fewest digits that are read back as the same number.
-/
namespace QueryLint.Data

/-- A binary floating-point number. -/
inductive Binary64 where
  | finite (negative : Bool) (significand : Nat) (exponent : Int)
  | infinite (negative : Bool)
  | nan
  deriving DecidableEq, Repr

namespace Binary64

/-- The number of bits of a significand. -/
def precision : Nat := 53

/-- The exponent of the smallest numbers. -/
def leastExponent : Int := -1074

/-- The exponent of the largest numbers. -/
def greatestExponent : Int := 971

/-- A fraction of natural numbers. -/
structure Fraction where
  numerator : Nat
  denominator : Nat

/-- The fraction `n · b ^ e`. -/
def Fraction.scaled (n b : Nat) (e : Int) : Fraction :=
  if 0 ≤ e then ⟨n * Nat.pow b e.toNat, 1⟩ else ⟨n, Nat.pow b (-e).toNat⟩

def Fraction.le (x y : Fraction) : Bool :=
  x.numerator * y.denominator ≤ y.numerator * x.denominator

def Fraction.lt (x y : Fraction) : Bool :=
  x.numerator * y.denominator < y.numerator * x.denominator

/-- The fraction divided by `b ^ e`. -/
def Fraction.unscale (x : Fraction) (b : Nat) (e : Int) : Fraction :=
  if 0 ≤ e then ⟨x.numerator, x.denominator * Nat.pow b e.toNat⟩
  else ⟨x.numerator * Nat.pow b (-e).toNat, x.denominator⟩

/-- The nearest natural number, a tie going to the even one. -/
def Fraction.round (x : Fraction) : Nat :=
  let q := x.numerator / x.denominator
  let twice := 2 * (x.numerator % x.denominator)
  if twice < x.denominator then q
  else if x.denominator < twice then q + 1
  else if q % 2 = 0 then q else q + 1

/-- The number nearest to a positive fraction. -/
def ofFraction (negative : Bool) (x : Fraction) : Binary64 :=
  let magnitude : Int := (Nat.log2 x.numerator : Int) - Nat.log2 x.denominator
  let low := max leastExponent (magnitude - precision)
  let wide := (x.unscale 2 low).numerator / (x.unscale 2 low).denominator
  let e := if Nat.pow 2 precision ≤ wide then low + 1 else low
  let m := (x.unscale 2 e).round
  let (m, e) := if m = Nat.pow 2 precision then (Nat.pow 2 (precision - 1), e + 1) else (m, e)
  if greatestExponent < e then infinite negative else finite negative m e

/-- The number nearest to `digits · 10 ^ exponent`. -/
def ofDecimal (negative : Bool) (digits : Nat) (exponent : Int) : Binary64 :=
  let length : Int := (Nat.toDigits 10 digits).length
  if digits = 0 ∨ length + exponent < -400 then finite negative 0 leastExponent
  else if 400 < length + exponent then infinite negative
  else ofFraction negative (.scaled digits 10 exponent)

def isInteger : Binary64 → Bool
  | finite _ m e => 0 ≤ e || m % Nat.pow 2 (-e).toNat == 0
  | _ => false

/-- The decimals that are read as a number: those between two bounds, the bounds included when
the significand is even. -/
structure Interval where
  low : Fraction
  high : Fraction
  closed : Bool

def Interval.contains (i : Interval) (x : Fraction) : Bool :=
  if i.closed then i.low.le x && x.le i.high else i.low.lt x && x.lt i.high

/-- The interval of a finite number. Below a power of two the numbers stand twice as close. -/
def interval (m : Nat) (e : Int) : Interval where
  low :=
    if m = Nat.pow 2 (precision - 1) ∧ leastExponent < e then .scaled (4 * m - 1) 2 (e - 2)
    else .scaled (2 * m - 1) 2 (e - 1)
  high := .scaled (2 * m + 1) 2 (e - 1)
  closed := m % 2 == 0

/-- A decimal `digits · 10 ^ exponent`. -/
structure Decimal where
  digits : Nat
  exponent : Int

/-- The exponent `k` with `10 ^ k ≤ x < 10 ^ (k + 1)`, searched upwards from a lower estimate. -/
def decimalMagnitude (x : Fraction) : Nat → Int → Int
  | 0, k => k
  | steps + 1, k =>
    if (Fraction.scaled 1 10 (k + 1)).le x then decimalMagnitude x steps (k + 1) else k

/-- The nearer to `x` of the two decimals around it with `n` digits that lie in the interval. -/
def decimalNear (x : Fraction) (i : Interval) (magnitude : Int) (n : Nat) : Option Decimal :=
  let k := magnitude + 1 - n
  let y := x.unscale 10 k
  let below := y.numerator / y.denominator
  let nearest := y.round
  let other := if nearest = below then below + 1 else below
  if i.contains (.scaled nearest 10 k) then some ⟨nearest, k⟩
  else if i.contains (.scaled other 10 k) then some ⟨other, k⟩
  else none

/-- The decimal with the fewest digits that is read as the number; among those, the nearest. -/
def shortest (m : Nat) (e : Int) : Decimal :=
  let x := Fraction.scaled m 2 e
  let estimate : Int := ((Nat.log2 m : Int) + e) * 30103 / 100000 - 1
  let magnitude := decimalMagnitude x 4 estimate
  (((List.range 17).map (· + 1)).findSome? (decimalNear x (interval m e) magnitude)).getD
    ⟨m, e⟩

def withoutTrailingZeros (ds : List Char) : List Char :=
  (ds.reverse.dropWhile (· == '0')).reverse

/-- Digits with a decimal point `point` places after their start: positional notation for a
magnitude from a ten-thousandth up to sixteen digits, else an exponent of at least two digits. -/
def layout (ds : List Char) (point : Int) : List Char :=
  if -4 < point ∧ point ≤ 16 then
    if point ≤ 0 then ['0', '.'] ++ List.replicate (-point).toNat '0' ++ ds
    else if ds.length ≤ point.toNat then
      ds ++ List.replicate (point.toNat - ds.length) '0' ++ ['.', '0']
    else ds.take point.toNat ++ ['.'] ++ ds.drop point.toNat
  else
    let e := point - 1
    let magnitude := Nat.toDigits 10 e.natAbs
    let mantissa := match ds with
      | [] => ['0']
      | [d] => [d]
      | d :: more => d :: '.' :: more
    mantissa ++ ['e', if e < 0 then '-' else '+'] ++
      List.replicate (2 - magnitude.length) '0' ++ magnitude

def written : Binary64 → String
  | nan => "nan"
  | infinite negative => if negative then "-inf" else "inf"
  | finite negative m e =>
    let body :=
      if m = 0 then ['0', '.', '0']
      else
        let d := shortest m e
        let digits := Nat.toDigits 10 d.digits
        layout (withoutTrailingZeros digits) (digits.length + d.exponent)
    String.ofList (if negative then '-' :: body else body)

end Binary64

end QueryLint.Data
