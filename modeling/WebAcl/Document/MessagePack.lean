import WebAcl.Document.Basic

/-! # Documents in MessagePack

The binary rendering of a document. Every number, text, list and object begins with the shortest
head that holds its value or size; sizes of texts are counted in bytes of UTF-8.

* `Document.packed`: the bytes of a document. -/

namespace WebAcl.Document

/-- The lowest `width` bytes of a number, the highest of them first. -/
def bigEndian : Nat → Nat → List UInt8
  | 0, _ => []
  | width + 1, n => UInt8.ofNat (n >>> (8 * width)) :: bigEndian width n

/-- A number. -/
def packNumber (n : Nat) : List UInt8 :=
  if n < 0x80 then bigEndian 1 n
  else if n < UInt8.size then 0xcc :: bigEndian 1 n
  else if n < UInt16.size then 0xcd :: bigEndian 2 n
  else if n < UInt32.size then 0xce :: bigEndian 4 n
  else 0xcf :: bigEndian 8 n

/-- The head of a text of `size` bytes. -/
def textHead (size : Nat) : List UInt8 :=
  if size < 32 then bigEndian 1 (0xa0 + size)
  else if size < UInt8.size then 0xd9 :: bigEndian 1 size
  else if size < UInt16.size then 0xda :: bigEndian 2 size
  else 0xdb :: bigEndian 4 size

/-- The head of a list of `size` items. -/
def listHead (size : Nat) : List UInt8 :=
  if size < 16 then bigEndian 1 (0x90 + size)
  else if size < UInt16.size then 0xdc :: bigEndian 2 size
  else 0xdd :: bigEndian 4 size

/-- The head of an object of `size` members. -/
def objectHead (size : Nat) : List UInt8 :=
  if size < 16 then bigEndian 1 (0x80 + size)
  else if size < UInt16.size then 0xde :: bigEndian 2 size
  else 0xdf :: bigEndian 4 size

/-- A text. -/
def packText (s : String) : List UInt8 :=
  let bytes := s.toByteArray.data.toList
  textHead bytes.length ++ bytes

mutual

/-- The bytes of a document. -/
def packed : Document → List UInt8
  | .bool b => [if b then 0xc3 else 0xc2]
  | .number n => packNumber n.toNat
  | .text s => packText s
  | .list items => listHead items.length ++ packedItems items
  | .object members => objectHead members.length ++ packedMembers members

/-- The bytes of the items of a list. -/
def packedItems : List Document → List UInt8
  | [] => []
  | item :: items => packed item ++ packedItems items

/-- The bytes of the members of an object. -/
def packedMembers : List (String × Document) → List UInt8
  | [] => []
  | (key, document) :: members => packText key ++ packed document ++ packedMembers members

end

end WebAcl.Document
