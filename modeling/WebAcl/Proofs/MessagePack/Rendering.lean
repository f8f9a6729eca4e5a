import WebAcl.Document.MessagePack
import WebAcl.Proofs.Json.Rendering
import WebAcl.Proofs.MessagePack.Grammar

/-! # Documents in MessagePack

The heads of a document are forms of the table with the numbers they should have, so its bytes stand
for the same value as its texts, as long as every size has a form.

* `Document.Fits`: no text, list or object has `2 ^ 32` parts.
* `Document.packed_iff`: the bytes of a document stand for its value and for no other. -/

namespace WebAcl.Document

open MessagePack Json

/-! ### Numbers and heads -/

theorem length_bigEndian (width n : Nat) : (bigEndian width n).length = width := by
  induction width with
  | zero => rfl
  | succ width ih => rw [bigEndian, List.length_cons, ih]

/-- The bytes of a number that has no more of them give the number. -/
theorem number_bigEndian {width n : Nat} (h : n < 256 ^ width) :
    MessagePack.number (bigEndian width n) = n := by
  have hmod : ∀ width, MessagePack.number (bigEndian width n) = n % 256 ^ width := by
    intro width
    induction width with
    | zero => simp [bigEndian, MessagePack.number, Nat.mod_one]
    | succ width ih =>
      have hshift : n >>> (8 * width) = n / 256 ^ width := by
        rw [Nat.shiftRight_eq_div_pow, Nat.pow_mul]
      rw [bigEndian, MessagePack.number, length_bigEndian, ih, hshift, Nat.pow_succ, Nat.mod_mul]
      have hbyte : (UInt8.ofNat (n / 256 ^ width)).toNat = n / 256 ^ width % 256 :=
        UInt8.toNat_ofNat
      rw [hbyte, Nat.add_comm, Nat.mul_comm]
  rw [hmod, Nat.mod_eq_of_lt h]

theorem first_lt : ∀ f ∈ forms, f.first + f.count ≤ 256 := by decide

/-- The number of a form without further bytes stands in the first byte. -/
theorem short_written {f : Form} {i : Nat} (hf : f ∈ forms) (hw : f.width = 0) (hi : i < f.count) :
    HeadWritten f.kind i (bigEndian 1 (f.first + i)) := by
  have hfirst := first_lt f hf
  have hh : HeadWritten f.kind (i * 256 ^ f.width + MessagePack.number [])
      [UInt8.ofNat (f.first + i)] :=
    .form hf hi (UInt8.toNat_ofNat_of_lt (by rw [UInt8.size]; omega)) hw.symm
  rw [hw] at hh
  simpa [MessagePack.number, bigEndian] using hh

/-- The number of a form with one first byte stands in the bytes behind it. -/
theorem long_written {f : Form} {n : Nat} (hf : f ∈ forms) (hc : f.count = 1)
    (hn : n < 256 ^ f.width) :
    HeadWritten f.kind n (UInt8.ofNat f.first :: bigEndian f.width n) := by
  have hfirst := first_lt f hf
  have hh : HeadWritten f.kind (0 * 256 ^ f.width + MessagePack.number (bigEndian f.width n))
      (UInt8.ofNat f.first :: bigEndian f.width n) :=
    .form hf (by omega) (UInt8.toNat_ofNat_of_lt (by rw [UInt8.size]; omega))
      (length_bigEndian _ _)
  rwa [number_bigEndian hn, Nat.zero_mul, Nat.zero_add] at hh

theorem packNumber_written {n : Nat} (h : n < UInt64.size) :
    HeadWritten .natural n (packNumber n) := by
  unfold packNumber
  split_ifs with h₁ h₂ h₃ h₄
  · have hh := short_written (f := ⟨0x00, 128, 0, .natural⟩) (by decide) rfl h₁
    rwa [Nat.zero_add] at hh
  · exact long_written (f := ⟨0xcc, 1, 1, .natural⟩) (by decide) rfl h₂
  · exact long_written (f := ⟨0xcd, 1, 2, .natural⟩) (by decide) rfl h₃
  · exact long_written (f := ⟨0xce, 1, 4, .natural⟩) (by decide) rfl h₄
  · exact long_written (f := ⟨0xcf, 1, 8, .natural⟩) (by decide) rfl h

theorem textHead_written {size : Nat} (h : size < UInt32.size) :
    HeadWritten .text size (textHead size) := by
  unfold textHead
  split_ifs with h₁ h₂ h₃
  · exact short_written (f := ⟨0xa0, 32, 0, .text⟩) (by decide) rfl h₁
  · exact long_written (f := ⟨0xd9, 1, 1, .text⟩) (by decide) rfl h₂
  · exact long_written (f := ⟨0xda, 1, 2, .text⟩) (by decide) rfl h₃
  · exact long_written (f := ⟨0xdb, 1, 4, .text⟩) (by decide) rfl h

theorem listHead_written {size : Nat} (h : size < UInt32.size) :
    HeadWritten .list size (listHead size) := by
  unfold listHead
  split_ifs with h₁ h₂
  · exact short_written (f := ⟨0x90, 16, 0, .list⟩) (by decide) rfl h₁
  · exact long_written (f := ⟨0xdc, 1, 2, .list⟩) (by decide) rfl h₂
  · exact long_written (f := ⟨0xdd, 1, 4, .list⟩) (by decide) rfl h

theorem objectHead_written {size : Nat} (h : size < UInt32.size) :
    HeadWritten .object size (objectHead size) := by
  unfold objectHead
  split_ifs with h₁ h₂
  · exact short_written (f := ⟨0x80, 16, 0, .object⟩) (by decide) rfl h₁
  · exact long_written (f := ⟨0xde, 1, 2, .object⟩) (by decide) rfl h₂
  · exact long_written (f := ⟨0xdf, 1, 4, .object⟩) (by decide) rfl h

/-! ### Documents -/

theorem packText_written {s : String} (h : (utf8 s).length < UInt32.size) :
    TextWritten s (packText s) :=
  .sized (textHead_written h)

mutual

/-- The greatest size of a text, list or object in a document. -/
def largest : Document → Nat
  | .bool _ => 0
  | .number _ => 0
  | .text s => (utf8 s).length
  | .list items => max items.length (largestItem items)
  | .object members => max members.length (largestMember members)

/-- The greatest size in an item. -/
def largestItem : List Document → Nat
  | [] => 0
  | item :: items => max (largest item) (largestItem items)

/-- The greatest size of a key or in a member. -/
def largestMember : List (String × Document) → Nat
  | [] => 0
  | (key, document) :: members =>
    max (utf8 key).length (max (largest document) (largestMember members))

end

/-- Every text, list and object is shorter than `2 ^ 32`. -/
def Fits (document : Document) : Prop := document.largest < 2 ^ 32

instance (document : Document) : Decidable document.Fits :=
  inferInstanceAs (Decidable (_ < _))

theorem length_itemValues (items : List Document) : (itemValues items).length = items.length := by
  rw [itemValues_eq_map, List.length_map]

theorem length_memberValues (members : List (String × Document)) :
    (memberValues members).length = members.length := by
  rw [memberValues_eq_map, List.length_map]

mutual

/-- The bytes of a document stand for its value. -/
theorem packed_written : ∀ {document : Document}, document.Fits →
    ValueWritten document.value document.packed
  | .bool b, _ => by
    cases b
    · exact .scalar (short_written (f := ⟨0xc2, 2, 0, .boolean⟩) (i := 0) (by decide) rfl
        (by decide)) rfl
    · exact .scalar (short_written (f := ⟨0xc2, 2, 0, .boolean⟩) (i := 1) (by decide) rfl
        (by decide)) rfl
  | .number n, _ => .scalar (packNumber_written n.toNat_lt) (by
      rw [scalar?, UInt64.ofNat_toNat]
      rfl)
  | .text _, h => .text (packText_written h)
  | .list items, h => by
    rw [Fits, largest, Nat.max_lt] at h
    have hh := listHead_written h.1
    rw [← length_itemValues] at hh
    rw [packed, ← length_itemValues]
    exact .list hh (packedItems_written h.2)
  | .object members, h => by
    rw [Fits, largest, Nat.max_lt] at h
    have hh := objectHead_written h.1
    rw [← length_memberValues] at hh
    rw [packed, ← length_memberValues]
    exact .object hh (packedMembers_written h.2)

theorem packedItems_written : ∀ {items : List Document}, largestItem items < 2 ^ 32 →
    MessagePack.ItemsWritten (itemValues items) (packedItems items)
  | [], _ => .nil
  | _ :: _, h => by
    rw [largestItem, Nat.max_lt] at h
    exact .cons (packed_written h.1) (packedItems_written h.2)

theorem packedMembers_written : ∀ {members : List (String × Document)},
    largestMember members < 2 ^ 32 →
    MessagePack.MembersWritten (memberValues members) (packedMembers members)
  | [], _ => .nil
  | (key, document) :: members, h => by
    rw [largestMember, Nat.max_lt, Nat.max_lt] at h
    rw [packedMembers, List.append_assoc]
    exact .cons (packText_written h.1) (packed_written h.2.1) (packedMembers_written h.2.2)

end

/-- **The bytes of a document stand for its value** and for no other. -/
theorem packed_iff {document : Document} (h : document.Fits) {v : Value} :
    ValueWritten v document.packed ↔ v = document.value := by
  refine ⟨fun hv => ?_, fun hv => hv ▸ packed_written h⟩
  exact ((packed_written h).unique (r := []) hv rfl).1

end WebAcl.Document
