import WebAcl.Magnitude.Basic
import WebAcl.Text.Decimal

/-! # The shortest decimal text of a magnitude

A magnitude is written with the fewest decimal digits that read back as it, and of those with the
digits nearest to it. Every decimal within half a step of the neighbouring magnitudes reads back,
the ends of that interval only for an even mantissa. For one digit, two digits and so on the two
decimals around the exact value are tried; seventeen digits always suffice.

* `Magnitude.shortest`: the digits and their power of ten.
* `Magnitude.Layout`: where the decimal point stands and when an exponent is written. -/

namespace WebAcl

/-- The number `digits * 10 ^ exponent`. -/
structure Decimal where
  digits : Nat
  exponent : Int
  deriving DecidableEq

namespace Decimal

/-- The exact value of a decimal. -/
def toRatio (x : Decimal) : Ratio :=
  match x.exponent with
  | .ofNat k => ⟨x.digits * Nat.pow 10 k, 1⟩
  | .negSucc k => ⟨x.digits, Nat.pow 10 (k + 1)⟩

end Decimal

namespace Ratio

/-- Whether one ratio is below another. -/
def below (a b : Ratio) : Bool := a.num * b.den < b.num * a.den

/-- Whether a ratio is at most another. -/
def atMost (a b : Ratio) : Bool := a.num * b.den ≤ b.num * a.den

/-- The whole part of the ratio over `10 ^ exponent`. -/
def wholeOver (r : Ratio) : Int → Nat
  | .ofNat k => r.num / (r.den * Nat.pow 10 k)
  | .negSucc k => r.num * Nat.pow 10 (k + 1) / r.den

/-- The power of ten of the leading digit of a positive ratio; `fuel` bounds the leading zeros. -/
def leadingPower (r : Ratio) (fuel : Nat) : Int :=
  if r.den ≤ r.num then ((Nat.toDigits 10 (r.num / r.den)).length : Int) - 1
  else
    match (List.range fuel).find? fun k => r.den ≤ r.num * Nat.pow 10 (k + 1) with
    | some k => -((k : Int) + 1)
    | none => -(fuel : Int)

end Ratio

namespace Magnitude

/-- The decimals between `lower` and `upper` read back as the magnitude. -/
structure Interval where
  lower : Ratio
  upper : Ratio
  closed : Bool

/-- The interval of numbers that are rounded to a magnitude. -/
def interval (x : Magnitude) : Interval where
  lower :=
    let gap := if x.mantissa = 1 <<< 52 ∧ leastExponent < x.exponent then 1 else 2
    Ratio.shift ⟨4 * x.mantissa - gap, 1⟩ (x.exponent - 2)
  upper := Ratio.shift ⟨4 * x.mantissa + 2, 1⟩ (x.exponent - 2)
  closed := x.mantissa % 2 = 0

/-- Whether a ratio lies in an interval. -/
def Interval.contains (i : Interval) (r : Ratio) : Bool :=
  if i.closed then i.lower.atMost r && r.atMost i.upper else i.lower.below r && r.below i.upper

/-- The better of the two decimals around the value on the grid `10 ^ exponent`, if one of them
reads back: of two the nearer one, of two equally near the even one. -/
def onGrid? (x : Magnitude) (exponent : Int) : Option Decimal :=
  let value := x.toRatio
  let floor : Decimal := ⟨value.wholeOver exponent, exponent⟩
  let ceiling : Decimal := ⟨floor.digits + 1, exponent⟩
  let fits (y : Decimal) : Bool := x.interval.contains y.toRatio
  let middle : Ratio := Decimal.toRatio ⟨10 * floor.digits + 5, exponent - 1⟩
  match fits floor, fits ceiling with
  | true, true =>
    if value.below middle then some floor
    else if middle.below value then some ceiling
    else if floor.digits % 2 = 0 then some floor else some ceiling
  | true, false => some floor
  | false, true => some ceiling
  | false, false => none

/-- The fewest digits that read back as a positive magnitude. -/
def shortest (x : Magnitude) : Decimal :=
  let leading := x.toRatio.leadingPower 400
  let grids := (List.range 17).map fun (k : Nat) => leading - (k : Int)
  (grids.findSome? x.onGrid?).getD ⟨x.mantissa, 0⟩

/-! ### Layout -/

/-- How digits become text: between which powers of ten the leading digit is written in its place,
what stands for a missing fraction, and how an exponent begins. -/
structure Layout where
  leastPlain : Int
  greatestPlain : Int
  fraction : List Char
  positiveExponent : List Char
  negativeExponent : List Char

namespace Layout

/-- Numbers from `10 ^ -5` to below `10 ^ 16` are written without exponent and always with a
fraction; an exponent has its sign. -/
def message : Layout where
  leastPlain := -5
  greatestPlain := 15
  fraction := ['.', '0']
  positiveExponent := ['e', '+']
  negativeExponent := ['e', '-']

/-- Digits with the decimal point behind the first `point` of them, filled up with zeros. -/
def plain (layout : Layout) (digits : List Char) : Int → List Char
  | .ofNat point =>
    if point = 0 then '0' :: '.' :: digits
    else if digits.length ≤ point then
      digits ++ List.replicate (point - digits.length) '0' ++ layout.fraction
    else digits.take point ++ '.' :: digits.drop point
  | .negSucc k => '0' :: '.' :: (List.replicate (k + 1) '0' ++ digits)

/-- One digit, the others as a fraction, and the power of ten of the first digit. -/
def scientific (layout : Layout) (digits : List Char) (power : Int) : List Char :=
  let exponent := (if power < 0 then layout.negativeExponent else layout.positiveExponent) ++
    Nat.toDigits 10 power.natAbs
  match digits with
  | first :: second :: rest => first :: '.' :: second :: rest ++ exponent
  | _ => digits ++ exponent

/-- The text of a magnitude. -/
def text (layout : Layout) (x : Magnitude) : List Char :=
  if x.mantissa = 0 then '0' :: layout.fraction
  else
    let decimal := x.shortest
    let written := Nat.toDigits 10 decimal.digits
    let digits := (written.reverse.dropWhile (· = '0')).reverse
    let power := decimal.exponent + written.length - 1
    if layout.leastPlain ≤ power ∧ power ≤ layout.greatestPlain then layout.plain digits (power + 1)
    else layout.scientific digits power

end Layout

end Magnitude

end WebAcl
