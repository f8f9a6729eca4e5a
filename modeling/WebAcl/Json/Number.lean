import WebAcl.Magnitude.Shortest

/-! # The number of a literal

An integer literal denotes a natural number below `2 ^ 64` or a negative one down to `-2 ^ 63`;
every other literal denotes a floating-point number. -/

namespace WebAcl.Json

/-- The number that a literal denotes. -/
inductive Number where
  | natural (n : UInt64)
  | negative (n : Nat)
  | floating (isNegative : Bool) (magnitude : Magnitude)
  deriving DecidableEq

namespace Number

/-- The number in a message: the kind of number, then its value. -/
def describe : Number → String
  | .natural n => "integer `" ++ Text.decimal n.toNat ++ "`"
  | .negative n => "integer `-" ++ Text.decimal n ++ "`"
  | .floating isNegative magnitude =>
    "floating point `" ++ (if isNegative then "-" else "") ++
      String.ofList (Magnitude.Layout.message.text magnitude) ++ "`"

end Number

end WebAcl.Json
