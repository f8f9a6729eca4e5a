import WebAcl.Json.Reader

/-! # Records

A record is written as an object, its fields in any order, or as a list of its fields in the order
of their declaration. Reading starts from a record to which each field adds its value; fields that
may be left out keep the value of the start.

* `Field`, `Shape`: the fields of a record and what is done about others.
* `Shape.read`: a record. -/

namespace WebAcl.Json

/-- Where a field may be left out. -/
inductive Presence where
  /-- Nowhere. -/
  | required
  /-- In an object, but not in a list. -/
  | nullable
  /-- Everywhere. -/
  | defaulted
  deriving DecidableEq

/-- A field of a record and how its value is read and put into the record. -/
structure Field (α : Type) where
  name : String
  presence : Presence
  read : Reader (α → α)

namespace Field

/-- A field whose value is read by `reader` and put into the record by `store`. -/
def of {α β : Type} (name : String) (presence : Presence) (reader : Reader β) (store : α → β → α) :
    Field α :=
  ⟨name, presence, do
    let b ← reader
    pure fun a => store a b⟩

end Field

/-- The fields of a record in the order of their declaration. -/
structure Shape (α : Type) where
  name : String
  fields : List (Field α)
  /-- Whether fields of other names are passed over. -/
  isOpen : Bool
  start : α

namespace Shape

variable {α : Type}

/-- The names of the fields. -/
def fieldNames (shape : Shape α) : List String := shape.fields.map (·.name)

/-! ### Objects -/

/-- What was read of a record: its value so far and the fields that occurred. -/
structure Progress (α : Type) where
  value : α
  seen : List String

/-- The rest of a member: no field may occur twice, and other names are passed over or refused. -/
def member (shape : Shape α) (progress : Progress α) (key : String) : Reader (Progress α) :=
  match shape.fields.find? (·.name = key) with
  | some field =>
    if key ∈ progress.seen then Reader.fail (.duplicateField key)
    else do
      Reader.colon
      let update ← field.read
      pure ⟨update progress.value, key :: progress.seen⟩
  | none =>
    if shape.isOpen then do
      Reader.colon
      Reader.ignored
      pure progress
    else Reader.fail (.unknownField key shape.fieldNames)

/-- The first required field that did not occur. -/
def missing? (shape : Shape α) (seen : List String) : Option String :=
  (shape.fields.find? fun field => field.presence = .required && !seen.contains field.name).map
    (·.name)

/-- The members of a record behind the opening bracket. -/
def fromMembers (shape : Shape α) : Reader α := do
  let progress ← Reader.members shape.member ⟨shape.start, []⟩
  match shape.missing? progress.seen with
  | some name => Reader.fail (.missingField name)
  | none => pure progress.value

/-! ### Lists -/

/-- The fields from the one at `place` on, as elements of a list. -/
def fromElementsAt (shape : Shape α) : List (Field α) → Nat → Bool → α → Reader α
  | [], _, _, a => pure a
  | field :: fields, place, isFirst, a => do
    if ← Reader.nextElement isFirst then
      let update ← field.read
      fromElementsAt shape fields (place + 1) false (update a)
    else if field.presence = .defaulted then
      fromElementsAt shape fields (place + 1) isFirst a
    else Reader.fail (.invalidLength place shape.name shape.fields.length)

/-- The bracket behind the last field. -/
def closeList : Reader Unit := fun _ s =>
  match skipSpace s with
  | [] => .error .eofInList
  | ']' :: s => .ok ((), s)
  | ',' :: s =>
    match skipSpace s with
    | ']' :: _ => .error .trailingComma
    | _ => .error .trailingCharacters
  | _ => .error .trailingCharacters

/-- The elements of a record behind the opening bracket. -/
def fromElements (shape : Shape α) : Reader α := do
  let a ← shape.fromElementsAt shape.fields 0 true shape.start
  closeList
  pure a

/-! ### Records -/

/-- A record, as an object or as a list. -/
def read (shape : Shape α) : Reader α := fun depth s =>
  match skipSpace s with
  | [] => .error .eofInValue
  | '[' :: s => Reader.nested shape.fromElements depth s
  | '{' :: s => Reader.nested shape.fromMembers depth s
  | s => .error (Reader.mistyped (.record shape.name) s)

end Shape

end WebAcl.Json
