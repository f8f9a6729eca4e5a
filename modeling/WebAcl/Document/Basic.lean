/-! # Document trees

What is rendered is first laid out as a tree of objects, lists and scalars. Members of an object
keep their order, and numbers are words of 64 bits, the widest that every format can hold. -/

namespace WebAcl

/-- A tree of objects, lists and scalars. -/
inductive Document where
  | bool (b : Bool)
  | number (n : UInt64)
  | text (s : String)
  | list (items : List Document)
  | object (members : List (String × Document))

namespace Document

/-- A list of texts. -/
def texts (names : List String) : Document := .list (names.map .text)

/-- An object with one member. -/
def single (key : String) (document : Document) : Document := .object [(key, document)]

end Document

end WebAcl
