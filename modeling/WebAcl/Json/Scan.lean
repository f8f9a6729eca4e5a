import WebAcl.Json.Fault

/-! # Scanning a document

The pieces below the values of a document: blanks, words, texts and number literals. A scan takes
the characters that remain and gives what it read with the characters behind it, or the fault at
which it stopped.

* `skipSpace`: the remaining characters from the next one that is not blank.
* `word`: the rest of `null`, `true` or `false`.
* `textBody`: a text behind its opening quote. A code point beyond `0xffff` is escaped by two halves;
  a half that stands alone is a fault. -/

namespace WebAcl.Json

/-- Reads something off the characters that remain. -/
abbrev Scan (α : Type) := List Char → Except Fault (α × List Char)

/-- A blank, a tab or the end of a line. -/
def isSpace (c : Char) : Bool := c = ' ' || c = '\t' || c = '\n' || c = '\r'

/-- The remaining characters from the next one that is not blank. -/
def skipSpace (s : List Char) : List Char := s.dropWhile isSpace

/-- The rest of a word, of which the first letter has been seen. -/
def word : List Char → List Char → Except Fault (List Char)
  | [], s => .ok s
  | _ :: _, [] => .error .eofInValue
  | w :: ws, c :: s => if c = w then word ws s else .error .expectedWord

/-! ### Texts -/

/-- The value of a hexadecimal digit. -/
def hexValue? (c : Char) : Option Nat :=
  if '0' ≤ c ∧ c ≤ '9' then some (c.toNat - '0'.toNat)
  else if 'a' ≤ c ∧ c ≤ 'f' then some (c.toNat - 'a'.toNat + 10)
  else if 'A' ≤ c ∧ c ≤ 'F' then some (c.toNat - 'A'.toNat + 10)
  else none

/-- Four hexadecimal digits. Fewer than four bytes are the end of the text, whatever they are. -/
def fourHex : Scan Nat
  | a :: b :: c :: d :: s =>
    match hexValue? a, hexValue? b, hexValue? c, hexValue? d with
    | some a, some b, some c, some d => .ok (((a * 16 + b) * 16 + c) * 16 + d, s)
    | _, _, _, _ => .error .invalidEscape
  | s => if (String.ofList s).utf8ByteSize < 4 then .error .eofInString else .error .invalidEscape

/-- The first of the two halves of a code point beyond `0xffff`. -/
def isHighHalf (n : Nat) : Bool := 0xd800 ≤ n && n ≤ 0xdbff

/-- The second of the two halves. -/
def isLowHalf (n : Nat) : Bool := 0xdc00 ≤ n && n ≤ 0xdfff

/-- The code point of two halves. -/
def joinHalves (high low : Nat) : Char :=
  Char.ofNat (0x10000 + (high - 0xd800) * 0x400 + (low - 0xdc00))

/-- The second half behind a first one. -/
def lowHalf (high : Nat) : Scan Char
  | [] | ['\\'] => .error .eofInString
  | '\\' :: 'u' :: s =>
    match fourHex s with
    | .error fault => .error fault
    | .ok (low, s) => if isLowHalf low then .ok (joinHalves high low, s) else .error .loneSurrogate
  | _ => .error .hexEscapeEnd

/-- A character given by its code point. -/
def codePoint : Scan Char := fun s =>
  match fourHex s with
  | .error fault => .error fault
  | .ok (n, s) =>
    if isLowHalf n then .error .loneSurrogate
    else if isHighHalf n then lowHalf n s
    else .ok (Char.ofNat n, s)

/-- The character that a letter behind a backslash stands for. -/
def shortEscape? (c : Char) : Option Char :=
  if c = '"' then some '"'
  else if c = '\\' then some '\\'
  else if c = '/' then some '/'
  else if c = 'b' then some '\x08'
  else if c = 'f' then some '\x0c'
  else if c = 'n' then some '\n'
  else if c = 'r' then some '\r'
  else if c = 't' then some '\t'
  else none

/-- A character behind a backslash. -/
def escape : Scan Char
  | [] => .error .eofInString
  | c :: s =>
    match shortEscape? c with
    | some d => .ok (d, s)
    | none => if c = 'u' then codePoint s else .error .invalidEscape

theorem length_fourHex {s t : List Char} {n : Nat} (h : fourHex s = .ok (n, t)) :
    t.length < s.length := by
  unfold fourHex at h
  split at h
  · split at h
    · injection h with h
      obtain ⟨-, rfl⟩ := Prod.mk.inj h
      simp only [List.length_cons]
      omega
    · cases h
  · split at h <;> cases h

theorem length_lowHalf {s t : List Char} {high : Nat} {c : Char}
    (h : lowHalf high s = .ok (c, t)) : t.length < s.length := by
  unfold lowHalf at h
  split at h
  · cases h
  · cases h
  · split at h
    · cases h
    · next heq =>
      split at h
      · injection h with h
        obtain ⟨-, rfl⟩ := Prod.mk.inj h
        have := length_fourHex heq
        simp only [List.length_cons]
        omega
      · cases h
  · cases h

theorem length_codePoint {s t : List Char} {c : Char} (h : codePoint s = .ok (c, t)) :
    t.length < s.length := by
  unfold codePoint at h
  split at h
  · cases h
  · next heq =>
    have hlt := length_fourHex heq
    split at h
    · cases h
    · split at h
      · have := length_lowHalf h
        omega
      · injection h with h
        obtain ⟨-, rfl⟩ := Prod.mk.inj h
        exact hlt

/-- A backslash is followed by at least one character of the escape. -/
theorem length_escape {s t : List Char} {c : Char} (h : escape s = .ok (c, t)) :
    t.length < s.length := by
  unfold escape at h
  split at h
  · cases h
  · split at h
    · injection h with h
      obtain ⟨-, rfl⟩ := Prod.mk.inj h
      simp
    · split at h
      · have := length_codePoint h
        simp only [List.length_cons]
        omega
      · cases h

/-- The rest of a text behind the characters of `read`, which are in reverse order. -/
def textFrom (read : List Char) : Scan String
  | [] => .error .eofInString
  | c :: s =>
    if c = '"' then .ok (String.ofList read.reverse, s)
    else if c = '\\' then
      match h : escape s with
      | .error fault => .error fault
      | .ok (d, t) =>
        have : t.length < s.length := length_escape h
        textFrom (d :: read) t
    else if c < ' ' then .error .controlCharacter
    else textFrom (c :: read) s
termination_by s => s.length

/-- A text behind its opening quote. -/
def textBody : Scan String := textFrom []

/-! ### Number literals -/

/-- The parts of a number literal: its digits before the point, behind it and, with their sign,
in the exponent. -/
structure Literal where
  isNegative : Bool
  whole : List Char
  fraction : List Char
  exponent : Option (Bool × List Char)
  deriving DecidableEq

/-- Digits as long as there are some. -/
def digits (s : List Char) : List Char × List Char := (s.takeWhile Char.isDigit, s.dropWhile Char.isDigit)

/-- At least one digit. -/
def someDigits : Scan (List Char)
  | [] => .error .eofInValue
  | c :: s => if c.isDigit then .ok (digits (c :: s)) else .error .invalidNumber

/-- The digits before the point; a zero stands alone. -/
def wholePart : Scan (List Char)
  | '0' :: s =>
    match s with
    | c :: _ => if c.isDigit then .error .invalidNumber else .ok (['0'], s)
    | [] => .ok (['0'], s)
  | s => someDigits s

/-- The digits behind the point, if there is one. -/
def fractionPart : Scan (List Char)
  | '.' :: s => someDigits s
  | s => .ok ([], s)

/-- The sign of an exponent, if there is one, and whether it is negative. -/
def exponentSign : List Char → Bool × List Char
  | '-' :: s => (true, s)
  | '+' :: s => (false, s)
  | s => (false, s)

/-- The exponent, if there is one. -/
def exponentPart : Scan (Option (Bool × List Char))
  | c :: s =>
    if c = 'e' ∨ c = 'E' then
      let (isNegative, s) := exponentSign s
      match someDigits s with
      | .error fault => .error fault
      | .ok (digits, s) => .ok (some (isNegative, digits), s)
    else .ok (none, c :: s)
  | [] => .ok (none, [])

/-- The parts of a literal behind its sign. -/
def unsignedLiteral (isNegative : Bool) : Scan Literal := fun s =>
  match wholePart s with
  | .error fault => .error fault
  | .ok (whole, s) =>
    match fractionPart s with
    | .error fault => .error fault
    | .ok (fraction, s) =>
      match exponentPart s with
      | .error fault => .error fault
      | .ok (exponent, s) => .ok (⟨isNegative, whole, fraction, exponent⟩, s)

/-- The parts of a number literal. -/
def literal : Scan Literal
  | '-' :: s => unsignedLiteral true s
  | s => unsignedLiteral false s

/-- Whether a value that begins with this character is a number. -/
def beginsNumber (c : Char) : Bool := c = '-' || c.isDigit

namespace Literal

/-- As many digits as keep the number below `2 ^ 64`, put behind `acc`, and the digits left over. -/
def gather (acc : Nat) : List Char → Nat × List Char
  | [] => (acc, [])
  | c :: s =>
    let n := 10 * acc + (c.toNat - '0'.toNat)
    if n < UInt64.size then gather n s else (acc, c :: s)

/-- The number that digits denote. -/
def value (digits : List Char) : Nat := Nat.ofDigitChars 10 digits 0

/-- The power of ten that the exponent gives. -/
def power (l : Literal) : Int :=
  match l.exponent with
  | some (true, digits) => -(value digits : Int)
  | some (false, digits) => value digits
  | none => 0

/-- The floating-point number of a literal. Of the digits as many count as fit into 64 bits; a digit
before the point that does not fit still counts as a power of ten. -/
def magnitude? (l : Literal) : Option Magnitude :=
  let (significand, dropped) := gather 0 l.whole
  let (significand, ignored) := gather significand l.fraction
  Magnitude.scale? significand
    ((dropped.length : Int) - (l.fraction.length - ignored.length : Nat) + l.power)

/-- Whether a literal has neither fraction nor exponent. -/
def isInteger (l : Literal) : Bool := l.fraction.isEmpty && l.exponent.isNone

/-- The number of a literal: an integer that has 64 bits, or else a floating-point number. -/
def number? (l : Literal) : Option Number :=
  let n := value l.whole
  if l.isInteger && !l.isNegative && n < UInt64.size then some (.natural (UInt64.ofNat n))
  else if l.isInteger && l.isNegative && 0 < n && n ≤ 1 <<< 63 then some (.negative n)
  else l.magnitude?.map (.floating l.isNegative)

end Literal

/-- A number. -/
def number : Scan Number := fun s =>
  match literal s with
  | .error fault => .error fault
  | .ok (l, s) =>
    match l.number? with
    | some n => .ok (n, s)
    | none => .error .numberOutOfRange

end WebAcl.Json
