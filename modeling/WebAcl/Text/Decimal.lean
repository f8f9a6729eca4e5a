/-! # Decimal and padded text

Counts, limits and priorities are written in decimal without leading zeros, and the rows of a rule
table are padded with blanks to a fixed width. `decimal_inj`: two numbers with the same text are
equal. -/

namespace WebAcl.Text

/-- The decimal digits of `n`, most significant first and without leading zeros. -/
def decimal (n : Nat) : String := String.ofList (Nat.toDigits 10 n)

@[simp] theorem toList_decimal (n : Nat) : (decimal n).toList = Nat.toDigits 10 n := by
  simp [decimal]

theorem decimal_inj {m n : Nat} : decimal m = decimal n ↔ m = n := by
  refine ⟨fun h => ?_, fun h => h ▸ rfl⟩
  have h' : Nat.toDigits 10 m = Nat.toDigits 10 n := by simpa using congrArg String.toList h
  have := congrArg (Nat.ofDigitChars 10 · 0) h'
  simpa [Nat.ofDigitChars_toDigits] using this

/-- `s` moved to the right edge of a field of `width` characters. -/
def alignRight (width : Nat) (s : String) : String := String.ofList (s.toList.leftpad width ' ')

/-- `s` at the left edge of a field of `width` characters. -/
def alignLeft (width : Nat) (s : String) : String := String.ofList (s.toList.rightpad width ' ')

end WebAcl.Text
