import WebAcl.Document.Basic

/-! # Documents as JSON text

Two renderings of a document: without blanks, and with every item on a line of its own.

* `Document.compact`: no blanks at all.
* `Document.indented`: two blanks for each level, one after the colon of a member, and nothing
  between the brackets of an empty list or object.
* `Document.toJson`: either of them.
* `Document.quote`: a text in quotes, where only quotes, backslashes and controls are escaped. -/

namespace WebAcl.Document

/-- A character inside quotes. -/
def escapeChar (c : Char) : List Char :=
  if c = '"' then ['\\', '"']
  else if c = '\\' then ['\\', '\\']
  else if c = '\x08' then ['\\', 'b']
  else if c = '\t' then ['\\', 't']
  else if c = '\n' then ['\\', 'n']
  else if c = '\x0c' then ['\\', 'f']
  else if c = '\r' then ['\\', 'r']
  else if c < ' ' then
    ['\\', 'u', '0', '0', Nat.digitChar (c.toNat / 16), Nat.digitChar (c.toNat % 16)]
  else [c]

/-- A text in quotes. -/
def quote (s : String) : List Char := '"' :: s.toList.flatMap escapeChar ++ ['"']

/-- The word for a truth value. -/
def boolWord (b : Bool) : List Char := if b then ['t', 'r', 'u', 'e'] else ['f', 'a', 'l', 's', 'e']

/-- The parts with commas between them. -/
def commaSeparated (parts : List (List Char)) : List Char := [','].intercalate parts

/-! ### Without blanks -/

mutual

/-- The document as JSON text without blanks. -/
def compact : Document → List Char
  | .bool b => boolWord b
  | .number n => Nat.toDigits 10 n.toNat
  | .text s => quote s
  | .list items => '[' :: commaSeparated (compactItems items) ++ [']']
  | .object members => '{' :: commaSeparated (compactMembers members) ++ ['}']

/-- The items of a list without blanks. -/
def compactItems : List Document → List (List Char)
  | [] => []
  | item :: items => compact item :: compactItems items

/-- The members of an object without blanks. -/
def compactMembers : List (String × Document) → List (List Char)
  | [] => []
  | (key, document) :: members =>
    (quote key ++ ':' :: compact document) :: compactMembers members

end

/-! ### With lines -/

/-- The beginning of a line at a level. -/
def newLine (level : Nat) : List Char := '\n' :: List.replicate (2 * level) ' '

/-- The parts between brackets: each on its own line one level down, the closing bracket on a line
at its own level. -/
def bracketed (opening closing : Char) (level : Nat) (parts : List (List Char)) : List Char :=
  if parts.isEmpty then [opening, closing]
  else
    opening :: commaSeparated (parts.map (newLine (level + 1) ++ ·)) ++ newLine level ++ [closing]

mutual

/-- The document as JSON text with lines, the first one at the given level. -/
def indentedAt (level : Nat) : Document → List Char
  | .bool b => boolWord b
  | .number n => Nat.toDigits 10 n.toNat
  | .text s => quote s
  | .list items => bracketed '[' ']' level (indentedItems (level + 1) items)
  | .object members => bracketed '{' '}' level (indentedMembers (level + 1) members)

/-- The items of a list with lines. -/
def indentedItems (level : Nat) : List Document → List (List Char)
  | [] => []
  | item :: items => indentedAt level item :: indentedItems level items

/-- The members of an object with lines. -/
def indentedMembers (level : Nat) : List (String × Document) → List (List Char)
  | [] => []
  | (key, document) :: members =>
    (quote key ++ ':' :: ' ' :: indentedAt level document) :: indentedMembers level members

end

/-- The document as JSON text with lines. -/
def indented (document : Document) : List Char := indentedAt 0 document

/-- The document as JSON text, with or without lines. -/
def toJson (document : Document) (lines : Bool) : String :=
  String.ofList (if lines then document.indented else document.compact)

end WebAcl.Document
