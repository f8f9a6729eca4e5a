import WebAcl.Json.Number
import WebAcl.Text.Quoted

/-! # Faults of a document

Why a text is not the document that was asked for. A fault is a cause; `Fault.message` says it in
words, `Fault.category` says whether the text ended early, is no JSON, or is JSON of another shape.
Where the text is at fault is not kept: the words ` at line L column C`, which the program puts behind
the message of a fault that has a place, are left out here and wherever the message is passed on.
-/

namespace WebAcl.Json

/-- The kind of value that was found. -/
inductive Found where
  | null
  | boolean (b : Bool)
  | number (n : Number)
  | string (s : String)
  | sequence
  | map
  deriving DecidableEq

/-- The kind of value that was asked for. -/
inductive Expected where
  | string
  | boolean
  | limit
  | sequence
  | map
  | unit
  | record (name : String)
  deriving DecidableEq

/-- Why a text cannot be read. -/
inductive Fault where
  | eofInValue
  | eofInString
  | eofInList
  | eofInObject
  | expectedValue
  | expectedWord
  | expectedColon
  | expectedListEnd
  | expectedObjectEnd
  | trailingComma
  | keyNotString
  | trailingCharacters
  | controlCharacter
  | invalidEscape
  | hexEscapeEnd
  | loneSurrogate
  | invalidNumber
  | numberOutOfRange
  | tooDeep
  /-- A value of another kind. -/
  | mistyped (found : Found) (expected : Expected)
  /-- A negative integer in place of a limit; the magnitude is kept. -/
  | negativeLimit (n : Nat)
  /-- A list that holds too few fields of a record. -/
  | invalidLength (length : Nat) (name : String) (fields : Nat)
  | missingField (name : String)
  | duplicateField (name : String)
  | unknownField (name : String) (known : List String)
  | unknownVariant (name : String) (known : List String)
  /-- Neither the word for everything nor a list of groups. -/
  | noSelection
  deriving DecidableEq

/-- Whether a text ended early, is no JSON, or has another shape. -/
inductive Category where
  | eof
  | grammar
  | data
  deriving DecidableEq

/-- The word for a category. -/
def Category.label : Category → String
  | .eof => "Eof"
  | .grammar => "Syntax"
  | .data => "Data"

/-- What was found, in words. -/
def Found.describe : Found → String
  | .null => "null"
  | .boolean true => "boolean `true`"
  | .boolean false => "boolean `false`"
  | .number n => n.describe
  | .string s => "string " ++ Text.quoted s
  | .sequence => "sequence"
  | .map => "map"

/-- What was asked for, in words. -/
def Expected.describe : Expected → String
  | .string => "a string"
  | .boolean => "a boolean"
  | .limit => "u64"
  | .sequence => "a sequence"
  | .map => "a map"
  | .unit => "unit"
  | .record name => "struct " ++ name

/-- A name between backquotes. -/
def backquoted (name : String) : String := "`" ++ name ++ "`"

/-- The names that would have been right, in words. -/
def alternatives : List String → String
  | [] => "there are no fields"
  | [a] => "expected " ++ backquoted a
  | [a, b] => "expected " ++ backquoted a ++ " or " ++ backquoted b
  | names => "expected one of " ++ String.intercalate ", " (names.map backquoted)

namespace Fault

/-- Which kind of fault it is. -/
def category : Fault → Category
  | .eofInValue | .eofInString | .eofInList | .eofInObject => .eof
  | .mistyped .. | .negativeLimit .. | .invalidLength .. | .missingField .. | .duplicateField ..
  | .unknownField .. | .unknownVariant .. | .noSelection => .data
  | _ => .grammar

/-- The fault in words, without the place. -/
def message : Fault → String
  | .eofInValue => "EOF while parsing a value"
  | .eofInString => "EOF while parsing a string"
  | .eofInList => "EOF while parsing a list"
  | .eofInObject => "EOF while parsing an object"
  | .expectedValue => "expected value"
  | .expectedWord => "expected ident"
  | .expectedColon => "expected `:`"
  | .expectedListEnd => "expected `,` or `]`"
  | .expectedObjectEnd => "expected `,` or `\x7d`"
  | .trailingComma => "trailing comma"
  | .keyNotString => "key must be a string"
  | .trailingCharacters => "trailing characters"
  | .controlCharacter => "control character (\\u0000-\\u001F) found while parsing a string"
  | .invalidEscape => "invalid escape"
  | .hexEscapeEnd => "unexpected end of hex escape"
  | .loneSurrogate => "lone leading surrogate in hex escape"
  | .invalidNumber => "invalid number"
  | .numberOutOfRange => "number out of range"
  | .tooDeep => "recursion limit exceeded"
  | .mistyped found expected =>
    "invalid type: " ++ found.describe ++ ", expected " ++ expected.describe
  | .negativeLimit n => "invalid value: " ++ (Number.negative n).describe ++ ", expected u64"
  | .invalidLength length name fields =>
    "invalid length " ++ Text.decimal length ++ ", expected struct " ++ name ++ " with " ++
      Text.decimal fields ++ (if fields = 1 then " element" else " elements")
  | .missingField name => "missing field " ++ backquoted name
  | .duplicateField name => "duplicate field " ++ backquoted name
  | .unknownField name known => "unknown field " ++ backquoted name ++ ", " ++ alternatives known
  | .unknownVariant name known =>
    "unknown variant " ++ backquoted name ++ ", " ++ alternatives known
  | .noSelection => "data did not match any variant of untagged enum RawSelection"

end Fault

end WebAcl.Json
