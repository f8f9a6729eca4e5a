import WebAcl.Json.Reader

/-! # Values of any shape

Where a document may hold values of several shapes, the value is read whole before it is looked at,
so its faults of grammar, depth and range come first.

* `Value.read`: a value of any shape. -/

namespace WebAcl.Json

/-- A value of any shape. -/
inductive Value where
  | null
  | boolean (b : Bool)
  | number (n : Number)
  | text (s : String)
  | list (items : List Value)
  | object (members : List (String × Value))

namespace Value

/-- The rest of a member that has any value, put in front of those already read. -/
def member (value : Reader Value) (read : List (String × Value)) (key : String) :
    Reader (List (String × Value)) := do
  Reader.colon
  let value ← value
  pure ((key, value) :: read)

/-- A value within `depth` levels. -/
def readWithin (depth : Nat) : Scan Value := fun s =>
  match skipSpace s with
  | [] => .error .eofInValue
  | '"' :: s => (textBody s).map fun (word, s) => (.text word, s)
  | 'n' :: s => (word ['u', 'l', 'l'] s).map fun s => (.null, s)
  | 't' :: s => (word ['r', 'u', 'e'] s).map fun s => (.boolean true, s)
  | 'f' :: s => (word ['a', 'l', 's', 'e'] s).map fun s => (.boolean false, s)
  | '[' :: s =>
    match depth with
    | 0 => .error .tooDeep
    | depth + 1 =>
      (Reader.elements (fun _ => readWithin depth) depth s).map fun (items, s) => (.list items, s)
  | '{' :: s =>
    match depth with
    | 0 => .error .tooDeep
    | depth + 1 =>
      (Reader.members (member fun _ => readWithin depth) [] depth s).map fun (read, s) =>
        (.object read.reverse, s)
  | c :: s =>
    if beginsNumber c then (WebAcl.Json.number (c :: s)).map fun (n, s) => (.number n, s)
    else .error .expectedValue

/-- A value of any shape. -/
def read : Reader Value := readWithin

/-- The word of a value that stands for one. -/
def word? : Value → Option String
  | .text s => some s
  | .object [(key, .null)] => some key
  | _ => none

end Value

end WebAcl.Json
