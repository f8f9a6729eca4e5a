/-! # Binary floating-point magnitudes

The finite non-negative numbers of the 64-bit binary format, in exact arithmetic: a magnitude is a
whole mantissa below `2 ^ 53` times a power of two. The result of every operation is the exact
result rounded to the nearest magnitude, a tie going to the even mantissa.

* `Magnitude.nearest?`: the magnitude nearest to a ratio, unless the ratio is too large.
* `Magnitude.scale?`: a whole number times a power of ten, in the few rounded steps by which a
  decimal literal gets its value. -/

namespace WebAcl

/-- The ratio of two natural numbers. -/
structure Ratio where
  num : Nat
  den : Nat

/-- The whole number nearest to a ratio, the even one of two. -/
def Ratio.round (r : Ratio) : Nat :=
  let quotient := r.num / r.den
  let rest := 2 * (r.num % r.den)
  if rest < r.den then quotient
  else if r.den < rest then quotient + 1
  else quotient + quotient % 2

/-- A ratio times a power of two. -/
def Ratio.shift (r : Ratio) : Int → Ratio
  | .ofNat k => ⟨r.num <<< k, r.den⟩
  | .negSucc k => ⟨r.num, r.den <<< (k + 1)⟩

/-- The number `mantissa * 2 ^ exponent`. -/
structure Magnitude where
  mantissa : Nat
  exponent : Int
  deriving DecidableEq

namespace Magnitude

/-- The exponent of the smallest magnitudes. -/
def leastExponent : Int := -1074

/-- The exponent of the largest magnitudes. -/
def greatestExponent : Int := 971

/-- The number zero. -/
def zero : Magnitude := ⟨0, leastExponent⟩

/-- The exact value of a magnitude. -/
def toRatio (x : Magnitude) : Ratio := Ratio.shift ⟨x.mantissa, 1⟩ x.exponent

/-- The exponent at which a positive ratio has a mantissa of 53 binary digits, or the least one. -/
def exponentOf (r : Ratio) : Int :=
  let estimate := max leastExponent ((r.num.log2 : Int) - r.den.log2 - 53)
  let scaled := r.shift (-estimate)
  if scaled.num / scaled.den < 1 <<< 53 then estimate else estimate + 1

/-- The magnitude nearest to a ratio; none if the ratio is beyond the largest magnitudes. -/
def nearest? (r : Ratio) : Option Magnitude :=
  if r.num = 0 then some zero
  else
    let exponent := exponentOf r
    let mantissa := (r.shift (-exponent)).round
    let x : Magnitude := if mantissa = 1 <<< 53 then ⟨1 <<< 52, exponent + 1⟩ else ⟨mantissa, exponent⟩
    if x.exponent ≤ greatestExponent then some x else none

/-- The nearest magnitude to the product. -/
def mul? (x y : Magnitude) : Option Magnitude :=
  let a := x.toRatio
  let b := y.toRatio
  nearest? ⟨a.num * b.num, a.den * b.den⟩

/-- The nearest magnitude to the quotient, for `y` other than zero. -/
def div? (x y : Magnitude) : Option Magnitude :=
  let a := x.toRatio
  let b := y.toRatio
  nearest? ⟨a.num * b.den, a.den * b.num⟩

/-- The magnitude nearest to a whole number. -/
def ofNat? (n : Nat) : Option Magnitude := nearest? ⟨n, 1⟩

/-- The magnitude nearest to a power of ten. -/
def powerOfTen? (k : Nat) : Option Magnitude := ofNat? (Nat.pow 10 k)

/-- The largest power of ten among the magnitudes has this exponent. -/
def greatestPower : Nat := 308

/-- `x` divided by the largest power of ten `steps` times, or until nothing is left of it. -/
def divideDown? (x : Magnitude) : Nat → Option Magnitude
  | 0 => some x
  | steps + 1 =>
    if x.mantissa = 0 then some x
    else do divideDown? (← div? x (← powerOfTen? greatestPower)) steps

/-- `x` over `10 ^ k`, in as few steps of at most `10 ^ 308` as will do. -/
def scaleDown? (x : Magnitude) (k : Nat) : Option Magnitude := do
  let steps := (k - 1) / greatestPower
  div? (← divideDown? x steps) (← powerOfTen? (k - greatestPower * steps))

/-- `x` times `10 ^ k`; none if that is beyond the largest magnitudes. -/
def scaleUp? (x : Magnitude) (k : Nat) : Option Magnitude :=
  if k ≤ greatestPower then do mul? x (← powerOfTen? k)
  else if x.mantissa = 0 then some x
  else none

/-- The magnitude of `significand * 10 ^ exponent`; none if that is beyond the largest ones. -/
def scale? (significand : Nat) (exponent : Int) : Option Magnitude := do
  let x ← ofNat? significand
  match exponent with
  | .ofNat k => scaleUp? x k
  | .negSucc k => scaleDown? x (k + 1)

end Magnitude

end WebAcl
