import WebAcl.Json.Scan

/-! # Skipping a value

The value of a field that nobody asked for is passed over. It must be well-formed, but it may be
nested to any depth, its numbers may be of any size, and halves of code points may stand alone.

* `skipValue`: the characters behind the next value. -/

namespace WebAcl.Json

/-- A list or an object that has been entered. -/
inductive Frame where
  | list
  | object
  deriving DecidableEq

namespace Frame

/-- The closing bracket. -/
def closing : Frame → Char
  | .list => ']'
  | .object => '}'

/-- The text ends inside. -/
def atEnd : Frame → Fault
  | .list => .eofInList
  | .object => .eofInObject

/-- Neither a comma nor the closing bracket follows a value. -/
def unclosed : Frame → Fault
  | .list => .expectedListEnd
  | .object => .expectedObjectEnd

end Frame

/-- The characters behind a text whose opening quote has been seen. -/
def skipText : List Char → Except Fault (List Char)
  | [] => .error .eofInString
  | c :: s =>
    if c = '"' then .ok s
    else if c = '\\' then
      match s with
      | [] => .error .eofInString
      | d :: t =>
        if (shortEscape? d).isSome then skipText t
        else if d = 'u' then
          match h : fourHex t with
          | .error fault => .error fault
          | .ok (_, u) =>
            have : u.length < t.length := length_fourHex h
            skipText u
        else .error .invalidEscape
    else if c < ' ' then .error .controlCharacter
    else skipText s
termination_by s => s.length
decreasing_by all_goals (simp_all only [List.length_cons]; omega)

/-- The characters behind a number, a text or a word. -/
def skipScalar : List Char → Except Fault (List Char)
  | '"' :: s => skipText s
  | 'n' :: s => word ['u', 'l', 'l'] s
  | 't' :: s => word ['r', 'u', 'e'] s
  | 'f' :: s => word ['a', 'l', 's', 'e'] s
  | c :: s =>
    if beginsNumber c then
      match literal (c :: s) with
      | .ok (_, s) => .ok s
      | .error _ => .error .invalidNumber
    else .error .expectedValue
  | [] => .error .eofInValue

/-- The characters behind a key and its colon. -/
def skipKey (s : List Char) : Except Fault (List Char) :=
  match skipSpace s with
  | [] => .error .eofInObject
  | '"' :: s =>
    match skipText s with
    | .error fault => .error fault
    | .ok s =>
      match skipSpace s with
      | [] => .error .eofInObject
      | ':' :: s => .ok s
      | _ => .error .expectedColon
  | _ => .error .keyNotString

mutual

/-- The characters behind the next value and behind everything in `frames` around it. Every round
takes a character at least, so there are at most as many rounds as characters. -/
def skipInside : List Char → List Frame → List Char → Except Fault (List Char)
  | [], _, _ => .error .eofInValue
  | _ :: rounds, frames, s =>
    match skipSpace s with
    | [] => .error .eofInValue
    | '[' :: s =>
      match skipSpace s with
      | [] => .error .eofInList
      | ']' :: s => skipBehind rounds frames s
      | s => skipInside rounds (.list :: frames) s
    | '{' :: s =>
      match skipSpace s with
      | [] => .error .eofInObject
      | '}' :: s => skipBehind rounds frames s
      | s =>
        match skipKey s with
        | .error fault => .error fault
        | .ok s => skipInside rounds (.object :: frames) s
    | s =>
      match skipScalar s with
      | .error fault => .error fault
      | .ok s => skipBehind rounds frames s

/-- The characters behind everything in `frames`, from behind one of its values on. -/
def skipBehind : List Char → List Frame → List Char → Except Fault (List Char)
  | _, [], s => .ok s
  | [], frame :: _, _ => .error frame.atEnd
  | _ :: rounds, frame :: frames, s =>
    match skipSpace s with
    | [] => .error frame.atEnd
    | c :: s =>
      if c = frame.closing then skipBehind rounds frames s
      else if c = ',' then
        match frame with
        | .list => skipInside rounds (frame :: frames) s
        | .object =>
          match skipKey s with
          | .error fault => .error fault
          | .ok s => skipInside rounds (frame :: frames) s
      else .error frame.unclosed

end

/-- The characters behind the next value. -/
def skipValue (s : List Char) : Except Fault (List Char) := skipInside s [] s

end WebAcl.Json
