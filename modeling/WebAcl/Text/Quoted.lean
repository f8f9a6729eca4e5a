import WebAcl.Text.Unprintable

/-! # Quoted text

Messages quote the names they were given, so that a reader sees where a name begins and ends and
which invisible characters it holds.

* `quoted`: a text between double quotes.
* `quotedList`: a list of quoted texts between brackets. -/

namespace WebAcl.Text

/-- A character inside quotes: short escapes for the common ones, the code point for what cannot be
shown. -/
def quotedChar (c : Char) : List Char :=
  if c = '\x00' then ['\\', '0']
  else if c = '\t' then ['\\', 't']
  else if c = '\r' then ['\\', 'r']
  else if c = '\n' then ['\\', 'n']
  else if c = '"' then ['\\', '"']
  else if c = '\\' then ['\\', '\\']
  else if isUnprintable c then '\\' :: 'u' :: '{' :: Nat.toDigits 16 c.toNat ++ ['}']
  else [c]

/-- A text between double quotes. -/
def quoted (s : String) : String := String.ofList ('"' :: s.toList.flatMap quotedChar ++ ['"'])

/-- The texts of a list, quoted, between brackets. -/
def quotedList (names : List String) : String :=
  "[" ++ String.intercalate ", " (names.map quoted) ++ "]"

end WebAcl.Text
