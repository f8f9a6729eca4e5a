import WebAcl.Json.Value
import Mathlib.Data.List.Forall2

/-! # The grammar of JSON

What a JSON text is, said by rules and without a reader. A text writes a tree: between its tokens
stand any blanks, a character between quotes stands for itself or is escaped in one of several ways,
and a number is written by its literal. A tree keeps whatever a reader could tell apart: the order of
the members of an object, members with the same key, the parts of a literal, and the UTF-16 code
units of a string, where half of a code point may stand alone.

* `Tree.Written`, `Tree.IsText`: the ways to write a tree, alone and as a whole text.
* `Tree.Denotes`, `Decodes`: the value of a tree and of a text, if its strings hold no lone halves
  and its numbers are in range.
* `Ends`: what may stand behind a value. -/

namespace WebAcl.Json

/-- What a JSON text says. -/
inductive Tree where
  | null
  | boolean (b : Bool)
  | number (literal : Literal)
  | text (units : List Nat)
  | list (items : List Tree)
  | object (members : List (List Nat × Tree))

/-- Only blanks, tabs and ends of lines. -/
def Blank (s : List Char) : Prop := ∀ c ∈ s, c = ' ' ∨ c = '\t' ∨ c = '\n' ∨ c = '\r'

instance (s : List Char) : Decidable (Blank s) := List.decidableBAll _ s

theorem blank_nil : Blank [] := nofun

/-! ### Strings -/

/-- The UTF-16 code units of a character: one, or the two halves of a code point beyond `0xffff`. -/
def unitsOf (c : Char) : List Nat :=
  if c.toNat < 0x10000 then [c.toNat]
  else [0xd800 + (c.toNat - 0x10000) / 0x400, 0xdc00 + (c.toNat - 0x10000) % 0x400]

/-- The UTF-16 code units of a string. -/
def utf16 (s : String) : List Nat := s.toList.flatMap unitsOf

/-- The letters behind a backslash with the characters they stand for. -/
def shortEscapes : List (Char × Char) :=
  [('"', '"'), ('\\', '\\'), ('/', '/'), ('b', '\x08'), ('f', '\x0c'), ('n', '\n'), ('r', '\r'),
    ('t', '\t')]

/-- A hexadecimal digit, of either case. -/
def IsHexDigit (n : Nat) (c : Char) : Prop :=
  n < 16 ∧ (c = Nat.digitChar n ∨ c = (Nat.digitChar n).toUpper)

instance (n : Nat) (c : Char) : Decidable (IsHexDigit n c) := inferInstanceAs (Decidable (_ ∧ _))

/-- The ways to write code units between quotes. -/
inductive UnitsWritten : List Nat → List Char → Prop
  | nil : UnitsWritten [] []
  | plain {c : Char} {units : List Nat} {s : List Char} :
      c ≠ '"' → c ≠ '\\' → ' ' ≤ c → UnitsWritten units s →
      UnitsWritten (unitsOf c ++ units) (c :: s)
  | short {letter c : Char} {units : List Nat} {s : List Char} :
      (letter, c) ∈ shortEscapes → UnitsWritten units s →
      UnitsWritten (c.toNat :: units) ('\\' :: letter :: s)
  | hex {k l m n : Nat} {a b c d : Char} {units : List Nat} {s : List Char} :
      IsHexDigit k a → IsHexDigit l b → IsHexDigit m c → IsHexDigit n d → UnitsWritten units s →
      UnitsWritten ((((k * 16 + l) * 16 + m) * 16 + n) :: units)
        ('\\' :: 'u' :: a :: b :: c :: d :: s)

/-- Whether a character may stand between quotes as it is. -/
def isPlain (c : Char) : Bool := c != '"' && c != '\\' && decide (' ' ≤ c)

/-- Characters that need no escape stand for themselves. -/
theorem unitsWritten_plain : ∀ {s : List Char}, s.all isPlain = true →
    UnitsWritten (s.flatMap unitsOf) s
  | [], _ => .nil
  | c :: s, h => by
    rw [List.all_cons, Bool.and_eq_true] at h
    obtain ⟨⟨hquote, hbackslash⟩, hcontrol⟩ : (c ≠ '"' ∧ c ≠ '\\') ∧ ' ' ≤ c := by
      simpa [isPlain] using h.1
    exact .plain hquote hbackslash hcontrol (unitsWritten_plain h.2)

/-! ### Numbers -/

/-- At least one digit, and nothing else. -/
def IsDigits (s : List Char) : Prop := s ≠ [] ∧ ∀ c ∈ s, c.isDigit = true

/-- The digits before the point; a zero stands alone. -/
def IsWhole (s : List Char) : Prop := s = ['0'] ∨ (IsDigits s ∧ s.head? ≠ some '0')

/-- The digits behind the point, if there is one. -/
inductive FractionWritten : List Char → List Char → Prop
  | none : FractionWritten [] []
  | some {digits : List Char} : IsDigits digits → FractionWritten digits ('.' :: digits)

/-- The exponent, if there is one, and whether it is negative. -/
inductive ExponentWritten : Option (Bool × List Char) → List Char → Prop
  | none : ExponentWritten none []
  | unsigned {mark : Char} {digits : List Char} : mark = 'e' ∨ mark = 'E' → IsDigits digits →
      ExponentWritten (some (false, digits)) (mark :: digits)
  | plus {mark : Char} {digits : List Char} : mark = 'e' ∨ mark = 'E' → IsDigits digits →
      ExponentWritten (some (false, digits)) (mark :: '+' :: digits)
  | minus {mark : Char} {digits : List Char} : mark = 'e' ∨ mark = 'E' → IsDigits digits →
      ExponentWritten (some (true, digits)) (mark :: '-' :: digits)

/-- The ways to write a literal. -/
inductive LiteralWritten : Literal → List Char → Prop
  | parts {isNegative : Bool} {whole fraction : List Char} {exponent : Option (Bool × List Char)}
      {f e : List Char} : IsWhole whole → FractionWritten fraction f → ExponentWritten exponent e →
      LiteralWritten ⟨isNegative, whole, fraction, exponent⟩
        ((if isNegative then ['-'] else []) ++ (whole ++ (f ++ e)))

/-! ### Trees -/

/-- What stands before an item: blanks, and a comma unless the item is the first one. -/
inductive Lead : Bool → List Char → Prop
  | first {w : List Char} : Blank w → Lead true w
  | next {v w : List Char} : Blank v → Blank w → Lead false (v ++ ',' :: w)

mutual

/-- The ways to write a tree. -/
inductive Tree.Written : Tree → List Char → Prop
  | null : Tree.Written .null ['n', 'u', 'l', 'l']
  | true : Tree.Written (.boolean true) ['t', 'r', 'u', 'e']
  | false : Tree.Written (.boolean false) ['f', 'a', 'l', 's', 'e']
  | number {literal : Literal} {s : List Char} : LiteralWritten literal s →
      Tree.Written (.number literal) s
  | text {units : List Nat} {s : List Char} : UnitsWritten units s →
      Tree.Written (.text units) ('"' :: (s ++ ['"']))
  | list {items : List Tree} {s : List Char} : ItemsWritten true items s →
      Tree.Written (.list items) ('[' :: s)
  | object {members : List (List Nat × Tree)} {s : List Char} : MembersWritten true members s →
      Tree.Written (.object members) ('{' :: s)

/-- The ways to write the items of a list, from the first or from a later one on up to the closing
bracket. -/
inductive ItemsWritten : Bool → List Tree → List Char → Prop
  | close {isFirst : Bool} {w : List Char} : Blank w → ItemsWritten isFirst [] (w ++ [']'])
  | item {isFirst : Bool} {item : Tree} {items : List Tree} {l s r : List Char} :
      Lead isFirst l → Tree.Written item s → ItemsWritten false items r →
      ItemsWritten isFirst (item :: items) (l ++ (s ++ r))

/-- The ways to write the members of an object, from the first or from a later one on up to the
closing bracket. -/
inductive MembersWritten : Bool → List (List Nat × Tree) → List Char → Prop
  | close {isFirst : Bool} {w : List Char} : Blank w → MembersWritten isFirst [] (w ++ ['}'])
  | member {isFirst : Bool} {key : List Nat} {value : Tree} {members : List (List Nat × Tree)}
      {l k v w s r : List Char} :
      Lead isFirst l → UnitsWritten key k → Blank v → Blank w → Tree.Written value s →
      MembersWritten false members r →
      MembersWritten isFirst ((key, value) :: members)
        (l ++ '"' :: (k ++ '"' :: (v ++ ':' :: (w ++ (s ++ r)))))

end

/-- The characters of a whole text that writes a tree. -/
def Tree.IsText (t : Tree) (text : List Char) : Prop :=
  ∃ before s behind, Blank before ∧ t.Written s ∧ Blank behind ∧ text = before ++ (s ++ behind)

/-! ### Values -/

/-- The value of a tree. -/
inductive Tree.Denotes : Tree → Value → Prop
  | null : Tree.Denotes .null .null
  | boolean {b : Bool} : Tree.Denotes (.boolean b) (.boolean b)
  | number {literal : Literal} {n : Number} : literal.number? = some n →
      Tree.Denotes (.number literal) (.number n)
  | text {s : String} : Tree.Denotes (.text (utf16 s)) (.text s)
  | list {items : List Tree} {values : List Value} : List.Forall₂ Tree.Denotes items values →
      Tree.Denotes (.list items) (.list values)
  | object {members : List (List Nat × Tree)} {values : List (String × Value)} :
      members.map (·.1) = values.map (utf16 ·.1) →
      List.Forall₂ Tree.Denotes (members.map (·.2)) (values.map (·.2)) →
      Tree.Denotes (.object members) (.object values)

/-- The value of a whole text. -/
def Decodes (text : List Char) (value : Value) : Prop := ∃ t : Tree, t.IsText text ∧ t.Denotes value

mutual

/-- How many lists and objects stand within one another. -/
def Tree.levels : Tree → Nat
  | .list items => itemLevels items + 1
  | .object members => memberLevels members + 1
  | _ => 0

/-- The levels of the deepest item. -/
def itemLevels : List Tree → Nat
  | [] => 0
  | item :: items => max item.levels (itemLevels items)

/-- The levels of the deepest member. -/
def memberLevels : List (List Nat × Tree) → Nat
  | [] => 0
  | (_, value) :: members => max value.levels (memberLevels members)

end

/-! ### Natural numbers -/

/-- A number without sign, fraction and exponent. -/
def Tree.natural (n : Nat) : Tree := .number ⟨false, Nat.toDigits 10 n, [], none⟩

theorem number?_natural (n : UInt64) :
    (⟨false, Nat.toDigits 10 n.toNat, [], none⟩ : Literal).number? = some (.natural n) := by
  simp [Literal.number?, Literal.value, Literal.isInteger, n.toNat_lt]

/-! ### What stands behind a value -/

/-- Nothing follows, or a blank, a comma or a closing bracket. -/
def Ends (rest : List Char) : Prop :=
  ∀ c ∈ rest.head?, c = ' ' ∨ c = '\t' ∨ c = '\n' ∨ c = '\r' ∨ c = ',' ∨ c = ']' ∨ c = '}'

theorem ends_of_blank {s : List Char} (h : Blank s) : Ends s := by
  intro c hc
  rcases h c (List.mem_of_mem_head? hc) with h | h | h | h <;> simp [h]

end WebAcl.Json
