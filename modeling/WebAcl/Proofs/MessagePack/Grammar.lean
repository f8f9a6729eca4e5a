import WebAcl.Json.Value
import Mathlib.Algebra.Group.Nat.Defs

/-! # The grammar of MessagePack

What MessagePack bytes stand for, said by the table of its forms. Every value begins with a head: a
first byte, and as many bytes behind it as the form has, which give a number: the value itself, or
the size of what follows. The first byte settles the form, so bytes can be taken for one value only,
however they go on.

* `forms`, `HeadWritten`: the heads.
* `ValueWritten`: the ways to write a value.
* `ValueWritten.unique`: bytes have one beginning that is a value. -/

namespace WebAcl.MessagePack

open Json

/-! ### Heads -/

/-- What a head announces. -/
inductive Kind where
  | null
  | boolean
  | natural
  /-- One of the negative numbers that have a first byte of their own. -/
  | negative
  /-- A number of so many bits in two's complement. -/
  | signed (bits : Nat)
  | text
  | list
  | object
  deriving DecidableEq

/-- A form of heads: `count` first bytes from `first` on, each followed by `width` bytes. -/
structure Form where
  first : Nat
  count : Nat
  width : Nat
  kind : Kind
  deriving DecidableEq

/-- The forms of the values that are no floating-point numbers, bytes or extensions. -/
def forms : List Form :=
  [⟨0x00, 128, 0, .natural⟩, ⟨0x80, 16, 0, .object⟩, ⟨0x90, 16, 0, .list⟩, ⟨0xa0, 32, 0, .text⟩,
    ⟨0xc0, 1, 0, .null⟩, ⟨0xc2, 2, 0, .boolean⟩,
    ⟨0xcc, 1, 1, .natural⟩, ⟨0xcd, 1, 2, .natural⟩, ⟨0xce, 1, 4, .natural⟩, ⟨0xcf, 1, 8, .natural⟩,
    ⟨0xd0, 1, 1, .signed 8⟩, ⟨0xd1, 1, 2, .signed 16⟩, ⟨0xd2, 1, 4, .signed 32⟩,
    ⟨0xd3, 1, 8, .signed 64⟩,
    ⟨0xd9, 1, 1, .text⟩, ⟨0xda, 1, 2, .text⟩, ⟨0xdb, 1, 4, .text⟩,
    ⟨0xdc, 1, 2, .list⟩, ⟨0xdd, 1, 4, .list⟩, ⟨0xde, 1, 2, .object⟩, ⟨0xdf, 1, 4, .object⟩,
    ⟨0xe0, 32, 0, .negative⟩]

/-- The number that bytes give, the highest of them first. -/
def number : List UInt8 → Nat
  | [] => 0
  | b :: bytes => b.toNat * 256 ^ bytes.length + number bytes

/-- The ways to write a head with its number: the place of the first byte in its form, then the
bytes behind it. -/
inductive HeadWritten : Kind → Nat → List UInt8 → Prop
  | form {f : Form} {i : Nat} {b : UInt8} {s : List UInt8} : f ∈ forms → i < f.count →
      b.toNat = f.first + i → s.length = f.width →
      HeadWritten f.kind (i * 256 ^ f.width + number s) (b :: s)

/-! ### Values -/

/-- The value of a head that is followed by nothing. -/
def scalar? : Kind → Nat → Option Value
  | .null, _ => some .null
  | .boolean, n => some (.boolean (n = 1))
  | .natural, n => some (.number (.natural (UInt64.ofNat n)))
  | .negative, n => some (.number (.negative (32 - n)))
  | .signed bits, n =>
    if n < 2 ^ (bits - 1) then some (.number (.natural (UInt64.ofNat n)))
    else some (.number (.negative (2 ^ bits - n)))
  | _, _ => none

/-- The bytes of a text. -/
def utf8 (s : String) : List UInt8 := s.toByteArray.data.toList

/-- A text behind its size. -/
inductive TextWritten (text : String) : List UInt8 → Prop
  | sized {h : List UInt8} : HeadWritten .text (utf8 text).length h →
      TextWritten text (h ++ utf8 text)

mutual

/-- The ways to write a value. -/
inductive ValueWritten : Value → List UInt8 → Prop
  | scalar {kind : Kind} {n : Nat} {value : Value} {h : List UInt8} : HeadWritten kind n h →
      scalar? kind n = some value → ValueWritten value h
  | text {text : String} {s : List UInt8} : TextWritten text s → ValueWritten (.text text) s
  | list {items : List Value} {h s : List UInt8} : HeadWritten .list items.length h →
      ItemsWritten items s → ValueWritten (.list items) (h ++ s)
  | object {members : List (String × Value)} {h s : List UInt8} :
      HeadWritten .object members.length h → MembersWritten members s →
      ValueWritten (.object members) (h ++ s)

/-- The items of a list one behind the other. -/
inductive ItemsWritten : List Value → List UInt8 → Prop
  | nil : ItemsWritten [] []
  | cons {item : Value} {items : List Value} {s r : List UInt8} : ValueWritten item s →
      ItemsWritten items r → ItemsWritten (item :: items) (s ++ r)

/-- The members of an object one behind the other, each key before its value. -/
inductive MembersWritten : List (String × Value) → List UInt8 → Prop
  | nil : MembersWritten [] []
  | cons {key : String} {value : Value} {members : List (String × Value)} {k s r : List UInt8} :
      TextWritten key k → ValueWritten value s → MembersWritten members r →
      MembersWritten ((key, value) :: members) (k ++ (s ++ r))

end

/-! ### One beginning -/

/-- No two forms share a first byte. -/
theorem forms_disjoint : ∀ f ∈ forms, ∀ g ∈ forms, f = g ∨ f.first + f.count ≤ g.first ∨
    g.first + g.count ≤ f.first := by
  decide

theorem HeadWritten.unique {kind kind' : Kind} {n n' : Nat} {h h' r r' : List UInt8}
    (hh : HeadWritten kind n h) (hh' : HeadWritten kind' n' h') (heq : h ++ r = h' ++ r') :
    kind = kind' ∧ n = n' ∧ r = r' := by
  obtain ⟨hf, hi, hb, hs⟩ := hh
  obtain ⟨hg, hj, hb', hs'⟩ := hh'
  rw [List.cons_append, List.cons_append, List.cons.injEq] at heq
  obtain ⟨rfl, heq⟩ := heq
  rcases forms_disjoint _ hf _ hg with rfl | hdisjoint
  · obtain ⟨rfl, rfl⟩ := List.append_inj heq (hs.trans hs'.symm)
    obtain rfl : _ = _ := Nat.add_left_cancel (hb.symm.trans hb')
    exact ⟨rfl, rfl, rfl⟩
  · omega

theorem utf8_inj {s t : String} : utf8 s = utf8 t ↔ s = t := by
  refine ⟨fun h => ?_, fun h => h ▸ rfl⟩
  have hdata : s.toByteArray.data = t.toByteArray.data := Array.toList_inj.mp h
  exact String.toByteArray_inj.mp (ByteArray.ext hdata)

theorem TextWritten.unique {s t : String} {b b' r r' : List UInt8} (h : TextWritten s b)
    (h' : TextWritten t b') (heq : b ++ r = b' ++ r') : s = t ∧ r = r' := by
  obtain ⟨hhead⟩ := h
  obtain ⟨hhead'⟩ := h'
  rw [List.append_assoc, List.append_assoc] at heq
  obtain ⟨-, hsize, heq⟩ := hhead.unique hhead' heq
  obtain ⟨hbytes, rfl⟩ := List.append_inj heq hsize
  exact ⟨utf8_inj.mp hbytes, rfl⟩

section Heads

variable {v : Value} {s h r t : List UInt8} {n : Nat}

/-- What begins with a head that nothing follows is the value of this head. -/
theorem ValueWritten.of_scalar {kind : Kind} {value : Value} (hv : ValueWritten v s)
    (hh : HeadWritten kind n h) (hscalar : scalar? kind n = some value) (heq : s ++ r = h ++ t) :
    v = value ∧ r = t := by
  cases hv with
  | scalar hh' hscalar' =>
    obtain ⟨rfl, rfl, rfl⟩ := hh'.unique hh heq
    exact ⟨Option.some.inj (hscalar'.symm.trans hscalar), rfl⟩
  | text htext =>
    obtain ⟨hh'⟩ := htext
    obtain ⟨rfl, -, -⟩ := hh'.unique hh (by simpa using heq)
    cases hscalar
  | list hh' _ =>
    obtain ⟨rfl, -, -⟩ := hh'.unique hh (by simpa using heq)
    cases hscalar
  | object hh' _ =>
    obtain ⟨rfl, -, -⟩ := hh'.unique hh (by simpa using heq)
    cases hscalar

/-- What begins with the head of a text is this text. -/
theorem ValueWritten.of_text {text : String} (hv : ValueWritten v s) (htext : TextWritten text h)
    (heq : s ++ r = h ++ t) : v = .text text ∧ r = t := by
  cases hv with
  | scalar hh hscalar =>
    obtain ⟨hh'⟩ := htext
    obtain ⟨rfl, -, -⟩ := hh.unique hh' (by simpa using heq)
    cases hscalar
  | text htext' =>
    obtain ⟨rfl, rfl⟩ := htext'.unique htext heq
    exact ⟨rfl, rfl⟩
  | list hh _ =>
    obtain ⟨hh'⟩ := htext
    cases (hh.unique hh' (by simpa using heq)).1
  | object hh _ =>
    obtain ⟨hh'⟩ := htext
    cases (hh.unique hh' (by simpa using heq)).1

/-- What begins with the head of a list is a list of so many items. -/
theorem ValueWritten.of_list (hv : ValueWritten v s) (hh : HeadWritten .list n h)
    (heq : s ++ r = h ++ t) : ∃ items tail, v = .list items ∧ items.length = n ∧
      ItemsWritten items tail ∧ tail ++ r = t := by
  cases hv with
  | scalar hh' hscalar =>
    obtain ⟨rfl, -, -⟩ := hh'.unique hh heq
    cases hscalar
  | text htext =>
    obtain ⟨hh'⟩ := htext
    cases (hh'.unique hh (by simpa using heq)).1
  | @list items h' tail hh' hitems =>
    obtain ⟨-, hlength, htail⟩ := hh'.unique hh (by simpa using heq)
    exact ⟨items, tail, rfl, hlength, hitems, htail⟩
  | object hh' _ => cases (hh'.unique hh (by simpa using heq)).1

/-- What begins with the head of an object is an object of so many members. -/
theorem ValueWritten.of_object (hv : ValueWritten v s) (hh : HeadWritten .object n h)
    (heq : s ++ r = h ++ t) : ∃ members tail, v = .object members ∧ members.length = n ∧
      MembersWritten members tail ∧ tail ++ r = t := by
  cases hv with
  | scalar hh' hscalar =>
    obtain ⟨rfl, -, -⟩ := hh'.unique hh heq
    cases hscalar
  | text htext =>
    obtain ⟨hh'⟩ := htext
    cases (hh'.unique hh (by simpa using heq)).1
  | list hh' _ => cases (hh'.unique hh (by simpa using heq)).1
  | @object members h' tail hh' hmembers =>
    obtain ⟨-, hlength, htail⟩ := hh'.unique hh (by simpa using heq)
    exact ⟨members, tail, rfl, hlength, hmembers, htail⟩

end Heads

mutual

/-- **Bytes begin with one value** at most, however they go on. -/
theorem ValueWritten.unique {v : Value} {s : List UInt8} : ValueWritten v s →
    ∀ {v' : Value} {s' r r' : List UInt8}, ValueWritten v' s' → s' ++ r' = s ++ r →
      v' = v ∧ r' = r
  | .scalar hh hscalar, _, _, _, _, hv', heq => hv'.of_scalar hh hscalar heq
  | .text htext, _, _, _, _, hv', heq => hv'.of_text htext heq
  | .list hh hitems, _, _, _, _, hv', heq => by
    rw [List.append_assoc] at heq
    obtain ⟨items', tail, rfl, hlength, hitems', htail⟩ := hv'.of_list hh heq
    obtain ⟨rfl, rfl⟩ := hitems.unique hitems' hlength htail
    exact ⟨rfl, rfl⟩
  | .object hh hmembers, _, _, _, _, hv', heq => by
    rw [List.append_assoc] at heq
    obtain ⟨members', tail, rfl, hlength, hmembers', htail⟩ := hv'.of_object hh heq
    obtain ⟨rfl, rfl⟩ := hmembers.unique hmembers' hlength htail
    exact ⟨rfl, rfl⟩

theorem ItemsWritten.unique {items : List Value} {s : List UInt8} : ItemsWritten items s →
    ∀ {items' : List Value} {s' r r' : List UInt8}, ItemsWritten items' s' →
      items'.length = items.length → s' ++ r' = s ++ r → items' = items ∧ r' = r
  | .nil, _, _, _, _, .nil, _, heq => ⟨rfl, heq⟩
  | .cons hs hr, _, _, _, _, .cons hs' hr', hlength, heq => by
    rw [List.append_assoc, List.append_assoc] at heq
    obtain ⟨rfl, heq⟩ := hs.unique hs' heq
    obtain ⟨rfl, rfl⟩ := hr.unique hr' (Nat.succ.inj hlength) heq
    exact ⟨rfl, rfl⟩

theorem MembersWritten.unique {members : List (String × Value)} {s : List UInt8} :
    MembersWritten members s →
    ∀ {members' : List (String × Value)} {s' r r' : List UInt8}, MembersWritten members' s' →
      members'.length = members.length → s' ++ r' = s ++ r → members' = members ∧ r' = r
  | .nil, _, _, _, _, .nil, _, heq => ⟨rfl, heq⟩
  | .cons hk hs hr, _, _, _, _, .cons hk' hs' hr', hlength, heq => by
    simp only [List.append_assoc] at heq
    obtain ⟨rfl, heq⟩ := hk'.unique hk heq
    obtain ⟨rfl, heq⟩ := hs.unique hs' heq
    obtain ⟨rfl, rfl⟩ := hr.unique hr' (Nat.succ.inj hlength) heq
    exact ⟨rfl, rfl⟩

end

end WebAcl.MessagePack
