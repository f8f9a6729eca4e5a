import WebAcl.Json.Skip

/-! # Readers

A reader takes a value of the type it is for off a document. It goes through the characters once and
stops at the first fault, so a fault of the grammar that comes late is not seen behind a value of the
wrong type that comes early. It is told how many levels of lists and objects may still be entered.

* `Reader.document`: a whole text, of which nothing may be left over.
* `Reader.string`, `Reader.boolean`, `Reader.limit`, `Reader.optional`: scalars.
* `Reader.list`, `Reader.members`: lists and objects of any length.
* `Reader.variant`: one of several words. -/

namespace WebAcl.Json

/-- Takes a value off a document, given how many levels may still be entered. -/
def Reader (α : Type) : Type := Nat → Scan α

namespace Reader

variable {α β σ : Type}

instance : Monad Reader where
  pure a := fun _ s => .ok (a, s)
  bind reader next := fun depth s =>
    match reader depth s with
    | .ok (a, s) => next a depth s
    | .error fault => .error fault

/-- Stops with a fault. -/
def fail (fault : Fault) : Reader α := fun _ _ => .error fault

/-- One level further down. -/
def nested (reader : Reader α) : Reader α
  | 0, _ => .error .tooDeep
  | depth + 1, s => reader depth s

/-- The kind of the value that begins here. A scalar is read to its end, so its own fault, if it has
one, comes first. -/
def found : List Char → Except Fault Found
  | '"' :: s => (textBody s).map fun (text, _) => .string text
  | 'n' :: s => (word ['u', 'l', 'l'] s).map fun _ => .null
  | 't' :: s => (word ['r', 'u', 'e'] s).map fun _ => .boolean true
  | 'f' :: s => (word ['a', 'l', 's', 'e'] s).map fun _ => .boolean false
  | '[' :: _ => .ok .sequence
  | '{' :: _ => .ok .map
  | c :: s =>
    if beginsNumber c then (number (c :: s)).map fun (n, _) => .number n else .error .expectedValue
  | [] => .error .eofInValue

/-- The fault of a value of the wrong kind. -/
def mistyped (expected : Expected) (s : List Char) : Fault :=
  match found s with
  | .ok found => .mistyped found expected
  | .error fault => fault

/-! ### Scalars -/

/-- A text. -/
def string : Reader String := fun _ s =>
  match skipSpace s with
  | [] => .error .eofInValue
  | '"' :: s => textBody s
  | s => .error (mistyped .string s)

/-- A truth value. -/
def boolean : Reader Bool := fun _ s =>
  match skipSpace s with
  | [] => .error .eofInValue
  | 't' :: s => (word ['r', 'u', 'e'] s).map fun s => (true, s)
  | 'f' :: s => (word ['a', 'l', 's', 'e'] s).map fun s => (false, s)
  | s => .error (mistyped .boolean s)

/-- Nothing but `null`. -/
def unit : Reader Unit := fun _ s =>
  match skipSpace s with
  | [] => .error .eofInValue
  | 'n' :: s => (word ['u', 'l', 'l'] s).map fun s => ((), s)
  | s => .error (mistyped .unit s)

/-- An integer literal from zero to below `2 ^ 64`. -/
def limit : Reader UInt64 := fun _ s =>
  match skipSpace s with
  | [] => .error .eofInValue
  | c :: s =>
    if beginsNumber c then
      match number (c :: s) with
      | .error fault => .error fault
      | .ok (.natural n, s) => .ok (n, s)
      | .ok (.negative n, _) => .error (.negativeLimit n)
      | .ok (n, _) => .error (.mistyped (.number n) .limit)
    else .error (mistyped .limit (c :: s))

/-- `null` for nothing, or a value. -/
def optional (reader : Reader α) : Reader (Option α) := fun depth s =>
  match skipSpace s with
  | 'n' :: s => (word ['u', 'l', 'l'] s).map fun s => (none, s)
  | s => (reader depth s).map fun (a, s) => (some a, s)

/-- Passes over a value. -/
def ignored : Reader Unit := fun _ s => (skipValue s).map fun s => ((), s)

/-! ### Lists -/

/-- Goes to the next element of a list, or says that there is none and stays at the bracket. -/
def nextElement (isFirst : Bool) : Reader Bool := fun _ s =>
  match skipSpace s with
  | [] => .error .eofInList
  | c :: s =>
    if c = ']' then .ok (false, c :: s)
    else if isFirst then .ok (true, c :: s)
    else if c = ',' then
      match skipSpace s with
      | [] => .error .eofInValue
      | ']' :: _ => .error .trailingComma
      | s => .ok (true, s)
    else .error .expectedListEnd

/-- The elements up to the closing bracket, of which `read` have been read, in reverse order. Every
round takes a character at least, so the characters that remain at first are as many as the rounds
that may follow, and after so many rounds the text is at its end. -/
def elementsFrom (reader : Reader α) (depth : Nat) :
    List Char → Bool → List α → Scan (List α)
  | [], _, _, _ => .error .eofInList
  | _ :: rounds, isFirst, read, s =>
    match nextElement isFirst depth s with
    | .error fault => .error fault
    | .ok (false, s) => .ok (read.reverse, s.drop 1)
    | .ok (true, s) =>
      match reader depth s with
      | .error fault => .error fault
      | .ok (a, s) => elementsFrom reader depth rounds false (a :: read) s

/-- The elements behind the opening bracket. -/
def elements (reader : Reader α) : Reader (List α) := fun depth s =>
  elementsFrom reader depth s true [] s

/-- A list of values. -/
def list (reader : Reader α) : Reader (List α) := fun depth s =>
  match skipSpace s with
  | [] => .error .eofInValue
  | '[' :: s => nested (elements reader) depth s
  | s => .error (mistyped .sequence s)

/-! ### Objects -/

/-- The next key of an object, or none behind its closing bracket. -/
def nextKey (isFirst : Bool) : Reader (Option String) := fun _ s =>
  match skipSpace s with
  | [] => .error .eofInObject
  | c :: s =>
    if c = '}' then .ok (none, s)
    else if isFirst then
      if c = '"' then (textBody s).map fun (key, s) => (some key, s) else .error .keyNotString
    else if c = ',' then
      match skipSpace s with
      | [] => .error .eofInValue
      | '"' :: s => (textBody s).map fun (key, s) => (some key, s)
      | '}' :: _ => .error .trailingComma
      | _ => .error .keyNotString
    else .error .expectedObjectEnd

/-- The colon behind a key. -/
def colon : Reader Unit := fun _ s =>
  match skipSpace s with
  | [] => .error .eofInObject
  | ':' :: s => .ok ((), s)
  | _ => .error .expectedColon

/-- The members up to the closing bracket: `member` is given what was read so far and a key, and
reads the rest of the member. There are at most as many rounds as characters. -/
def membersFrom (member : σ → String → Reader σ) (depth : Nat) :
    List Char → Bool → σ → Scan σ
  | [], _, _, _ => .error .eofInObject
  | _ :: rounds, isFirst, read, s =>
    match nextKey isFirst depth s with
    | .error fault => .error fault
    | .ok (none, s) => .ok (read, s)
    | .ok (some key, s) =>
      match member read key depth s with
      | .error fault => .error fault
      | .ok (read, s) => membersFrom member depth rounds false read s

/-- The members behind the opening bracket. -/
def members (member : σ → String → Reader σ) (start : σ) : Reader σ := fun depth s =>
  membersFrom member depth s true start s

/-- An object with keys of any kind. -/
def map (member : σ → String → Reader σ) (start : σ) : Reader σ := fun depth s =>
  match skipSpace s with
  | [] => .error .eofInValue
  | '{' :: s => nested (members member start) depth s
  | s => .error (mistyped .map s)

/-! ### Words -/

/-- The value of a word. -/
def choose (words : List (String × α)) (word : String) : Reader α :=
  match words.lookup word with
  | some a => pure a
  | none => fail (.unknownVariant word (words.map (·.1)))

/-- The bracket behind the only member of an object. -/
def closeSingle : Reader Unit := fun _ s =>
  match skipSpace s with
  | [] => .error .eofInObject
  | '}' :: s => .ok ((), s)
  | _ => .error .expectedValue

/-- The member of an object that stands for a word: the word is its key, and its value is `null`.

The word is looked for as the first key of any object is. So a value that is no text in its place is a
key that is no string, of whatever kind it is, and a text that ends behind the bracket ends in an
object: `{1:null}` and `{nul` are answered with `key must be a string`, `{` with `EOF while parsing an
object`, and `{}` with `expected value`. -/
def variantMember (words : List (String × α)) : Reader α := do
  match ← nextKey true with
  | none => fail .expectedValue
  | some word =>
    let a ← choose words word
    colon
    unit
    closeSingle
    pure a

/-- One of several words, as a text or as the only key of an object whose value is `null`. -/
def variant (words : List (String × α)) : Reader α := fun depth s =>
  match skipSpace s with
  | [] => .error .eofInValue
  | '"' :: s => (textBody s).bind fun (word, s) => choose words word depth s
  | '{' :: s => nested (variantMember words) depth s
  | _ => .error .expectedValue

/-! ### Whole texts -/

/-- How many levels of lists and objects a document may have. -/
def levels : Nat := 127

/-- The value of a whole text. -/
def document (reader : Reader α) (text : String) : Except Fault α :=
  match reader levels text.toList with
  | .error fault => .error fault
  | .ok (a, s) => if (skipSpace s).isEmpty then .ok a else .error .trailingCharacters

end Reader

end WebAcl.Json
