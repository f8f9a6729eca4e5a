import WebAcl.Document.Json
import WebAcl.Proofs.Json.Values

/-! # Documents as trees

Both renderings of a document write one tree, so they differ in blanks only, and the tree stands for
one value.

* `Document.tree`, `Document.value`: what a rendering says.
* `Document.compact_written`, `Document.indented_written`: both renderings say it.
* `Document.decodes_toJson`: and nothing else.
* `Document.value_inj`: the value tells the document. -/

namespace WebAcl.Document

open Json

/-! ### What is said -/

mutual

/-- The tree of a document. -/
def tree : Document → Tree
  | .bool b => .boolean b
  | .number n => .natural n.toNat
  | .text s => .text (utf16 s)
  | .list items => .list (itemTrees items)
  | .object members => .object (memberTrees members)

/-- The trees of items. -/
def itemTrees : List Document → List Tree
  | [] => []
  | item :: items => tree item :: itemTrees items

/-- The trees of members with their keys. -/
def memberTrees : List (String × Document) → List (List Nat × Tree)
  | [] => []
  | (key, document) :: members => (utf16 key, tree document) :: memberTrees members

end

mutual

/-- The value of a document. -/
def value : Document → Value
  | .bool b => .boolean b
  | .number n => .number (.natural n)
  | .text s => .text s
  | .list items => .list (itemValues items)
  | .object members => .object (memberValues members)

/-- The values of items. -/
def itemValues : List Document → List Value
  | [] => []
  | item :: items => value item :: itemValues items

/-- The values of members with their keys. -/
def memberValues : List (String × Document) → List (String × Value)
  | [] => []
  | (key, document) :: members => (key, value document) :: memberValues members

end

theorem itemValues_eq_map (items : List Document) : itemValues items = items.map value := by
  induction items with
  | nil => rfl
  | cons item items ih => rw [itemValues, ih, List.map_cons]

theorem memberValues_eq_map (members : List (String × Document)) :
    memberValues members = members.map fun m => (m.1, m.2.value) := by
  induction members with
  | nil => rfl
  | cons m members ih =>
    obtain ⟨key, document⟩ := m
    rw [memberValues, ih, List.map_cons]

mutual

/-- Documents with the same value are equal. -/
theorem value_inj : ∀ {first second : Document}, first.value = second.value → first = second
  | .bool _, second, h => by cases second <;> simp_all [value]
  | .number _, second, h => by cases second <;> simp_all [value]
  | .text _, second, h => by cases second <;> simp_all [value]
  | .list items, second, h => by
    cases second with
    | list items' =>
      rw [value, value, Value.list.injEq] at h
      rw [itemValues_inj h]
    | _ => simp [value] at h
  | .object members, second, h => by
    cases second with
    | object members' =>
      rw [value, value, Value.object.injEq] at h
      rw [memberValues_inj h]
    | _ => simp [value] at h

theorem itemValues_inj : ∀ {first second : List Document},
    itemValues first = itemValues second → first = second
  | [], [], _ => rfl
  | [], _ :: _, h => by simp [itemValues] at h
  | _ :: _, [], h => by simp [itemValues] at h
  | item :: items, item' :: items', h => by
    rw [itemValues, itemValues, List.cons.injEq] at h
    rw [value_inj h.1, itemValues_inj h.2]

theorem memberValues_inj : ∀ {first second : List (String × Document)},
    memberValues first = memberValues second → first = second
  | [], [], _ => rfl
  | [], (_, _) :: _, h => by simp [memberValues] at h
  | (_, _) :: _, [], h => by simp [memberValues] at h
  | (key, document) :: members, (key', document') :: members', h => by
    rw [memberValues, memberValues, List.cons.injEq, Prod.mk.injEq] at h
    rw [h.1.1, value_inj h.1.2, memberValues_inj h.2]

end

theorem keys_memberTrees : ∀ members : List (String × Document),
    (memberTrees members).map (·.1) = (memberValues members).map (utf16 ·.1)
  | [] => rfl
  | (_, _) :: members => congrArg _ (keys_memberTrees members)

mutual

theorem tree_denotes : ∀ document : Document, document.tree.Denotes document.value
  | .bool _ => .boolean
  | .number n => .number (number?_natural n)
  | .text _ => .text
  | .list items => .list (itemTrees_denote items)
  | .object members => .object (keys_memberTrees members) (memberTrees_denote members)

theorem itemTrees_denote : ∀ items : List Document,
    List.Forall₂ Tree.Denotes (itemTrees items) (itemValues items)
  | [] => .nil
  | item :: items => .cons (tree_denotes item) (itemTrees_denote items)

theorem memberTrees_denote : ∀ members : List (String × Document),
    List.Forall₂ Tree.Denotes ((memberTrees members).map (·.2)) ((memberValues members).map (·.2))
  | [] => .nil
  | (_, document) :: members => .cons (tree_denotes document) (memberTrees_denote members)

end

/-! ### Scalars -/

theorem head_toDigits {n : Nat} (h : 0 < n) : (Nat.toDigits 10 n).head? ≠ some '0' := by
  induction n using Nat.strongRecOn with
  | ind n ih =>
    by_cases hn : n < 10
    · rw [Nat.toDigits_of_lt_base hn]
      have hdigit : ∀ n < 10, 0 < n → [Nat.digitChar n].head? ≠ some '0' := by decide
      exact hdigit n hn h
    · -- the last digit is put behind those of the rest, which is no zero either
      have hsplit : Nat.toDigits 10 n = Nat.toDigits 10 (n / 10) ++ Nat.toDigits 10 (n % 10) := by
        rw [Nat.toDigits_append_toDigits (by decide) (by omega) (by omega), Nat.div_add_mod]
      have hrest := ih (n / 10) (by omega) (by omega)
      rw [hsplit, List.head?_append_of_ne_nil _ Nat.toDigits_ne_nil]
      exact hrest

theorem isWhole_toDigits (n : Nat) : IsWhole (Nat.toDigits 10 n) := by
  rcases Nat.eq_zero_or_pos n with rfl | hpos
  · exact Or.inl (by decide)
  · exact Or.inr ⟨⟨Nat.toDigits_ne_nil, fun c hc =>
      Nat.isDigit_of_mem_toDigits (by decide) (by decide) hc⟩, head_toDigits hpos⟩

theorem natural_written (n : Nat) : (Tree.natural n).Written (Nat.toDigits 10 n) := by
  have h : LiteralWritten ⟨false, Nat.toDigits 10 n, [], none⟩
      ([] ++ (Nat.toDigits 10 n ++ ([] ++ []))) := .parts (isWhole_toDigits n) .none .none
  rw [List.nil_append, List.append_nil, List.append_nil] at h
  exact .number h

theorem boolWord_written (b : Bool) : (Tree.boolean b).Written (boolWord b) := by
  cases b
  · exact .false
  · exact .true

theorem escapeChar_written (c : Char) {units : List Nat} {s : List Char}
    (h : UnitsWritten units s) : UnitsWritten (unitsOf c ++ units) (escapeChar c ++ s) := by
  unfold escapeChar
  split_ifs with h₁ h₂ h₃ h₄ h₅ h₆ h₇ h₈
  · subst h₁; exact .short (by decide) h
  · subst h₂; exact .short (by decide) h
  · subst h₃; exact .short (by decide) h
  · subst h₄; exact .short (by decide) h
  · subst h₅; exact .short (by decide) h
  · subst h₆; exact .short (by decide) h
  · subst h₇; exact .short (by decide) h
  · have hlt : c.toNat < 32 := h₈
    have hcode := UnitsWritten.hex (k := 0) (l := 0) (m := c.toNat / 16) (n := c.toNat % 16)
      ⟨by decide, Or.inl rfl⟩ ⟨by decide, Or.inl rfl⟩ ⟨by omega, Or.inl rfl⟩
      ⟨by omega, Or.inl rfl⟩ h
    have hvalue : ((0 * 16 + 0) * 16 + c.toNat / 16) * 16 + c.toNat % 16 = c.toNat := by omega
    rw [hvalue] at hcode
    rw [unitsOf_of_lt (by omega)]
    exact hcode
  · exact .plain h₁ h₂ (by simpa using h₈) h

theorem escaped_written (s : List Char) :
    UnitsWritten (s.flatMap unitsOf) (s.flatMap escapeChar) := by
  induction s with
  | nil => exact .nil
  | cons c s ih => exact escapeChar_written c ih

theorem quote_written (s : String) : (Tree.text (utf16 s)).Written (quote s) :=
  .text (escaped_written s.toList)

/-! ### Parts with commas between them -/

theorem commaSeparated_cons (part : List Char) (parts : List (List Char)) :
    commaSeparated (part :: parts) = part ++ parts.flatMap (',' :: ·) := by
  induction parts generalizing part with
  | nil => simp [commaSeparated]
  | cons next parts ih =>
    have h := ih next
    rw [commaSeparated] at h ⊢
    rw [List.intercalate_cons_cons, h]
    simp

/-- The part that an item is written as: blanks and the item. -/
def IsItem (item : Tree) (part : List Char) : Prop :=
  ∃ w s, Blank w ∧ item.Written s ∧ part = w ++ s

/-- The part that a member is written as: blanks, the key, the colon, blanks and the value. -/
def IsMember (member : List Nat × Tree) (part : List Char) : Prop :=
  ∃ w k v s, Blank w ∧ UnitsWritten member.1 k ∧ Blank v ∧ member.2.Written s ∧
    part = w ++ '"' :: (k ++ '"' :: ':' :: (v ++ s))

theorem laterItems_written {items : List Tree} {parts : List (List Char)} {w : List Char}
    (h : List.Forall₂ IsItem items parts) (hw : Blank w) :
    ItemsWritten false items (parts.flatMap (',' :: ·) ++ (w ++ [']'])) := by
  induction h with
  | nil => exact .close hw
  | @cons item part items parts hitem _ ih =>
    obtain ⟨v, s, hv, hs, rfl⟩ := hitem
    have hitems := ItemsWritten.item (.next blank_nil hv) hs ih
    simpa using hitems

theorem items_written {items : List Tree} {parts : List (List Char)} {w : List Char}
    (h : List.Forall₂ IsItem items parts) (hw : Blank w) :
    ItemsWritten true items (commaSeparated parts ++ (w ++ [']'])) := by
  cases h with
  | nil => exact .close hw
  | cons hitem hitems =>
    obtain ⟨v, s, hv, hs, rfl⟩ := hitem
    rw [commaSeparated_cons]
    have hitems := ItemsWritten.item (.first hv) hs (laterItems_written hitems hw)
    simpa using hitems

theorem laterMembers_written {members : List (List Nat × Tree)} {parts : List (List Char)}
    {w : List Char} (h : List.Forall₂ IsMember members parts) (hw : Blank w) :
    MembersWritten false members (parts.flatMap (',' :: ·) ++ (w ++ ['}'])) := by
  induction h with
  | nil => exact .close hw
  | @cons member part members parts hmember _ ih =>
    obtain ⟨v, k, u, s, hv, hk, hu, hs, rfl⟩ := hmember
    have hmembers := MembersWritten.member (.next blank_nil hv) hk blank_nil hu hs ih
    simpa using hmembers

theorem members_written {members : List (List Nat × Tree)} {parts : List (List Char)}
    {w : List Char} (h : List.Forall₂ IsMember members parts) (hw : Blank w) :
    MembersWritten true members (commaSeparated parts ++ (w ++ ['}'])) := by
  cases h with
  | nil => exact .close hw
  | cons hmember hmembers =>
    obtain ⟨v, k, u, s, hv, hk, hu, hs, rfl⟩ := hmember
    rw [commaSeparated_cons]
    have hmembers :=
      MembersWritten.member (.first hv) hk blank_nil hu hs (laterMembers_written hmembers hw)
    simpa using hmembers

/-! ### Both renderings -/

mutual

/-- The rendering without blanks writes the tree. -/
theorem compact_written : ∀ document : Document, document.tree.Written document.compact
  | .bool b => boolWord_written b
  | .number n => natural_written n.toNat
  | .text s => quote_written s
  | .list items => .list (items_written (compactItems_written items) blank_nil)
  | .object members => .object (members_written (compactMembers_written members) blank_nil)

theorem compactItems_written : ∀ items : List Document,
    List.Forall₂ IsItem (itemTrees items) (compactItems items)
  | [] => .nil
  | item :: items =>
    .cons ⟨[], _, blank_nil, compact_written item, rfl⟩ (compactItems_written items)

theorem compactMembers_written : ∀ members : List (String × Document),
    List.Forall₂ IsMember (memberTrees members) (compactMembers members)
  | [] => .nil
  | (key, document) :: members =>
    .cons ⟨[], _, [], _, blank_nil, escaped_written key.toList, blank_nil,
      compact_written document, by simp [quote]⟩ (compactMembers_written members)

end

theorem blank_newLine (level : Nat) : Blank (newLine level) := by
  intro c hc
  rcases List.mem_cons.mp hc with rfl | hc
  · simp
  · simp [List.eq_of_mem_replicate hc]

theorem bracketed_items {items : List Tree} {parts : List (List Char)} (level : Nat)
    (h : List.Forall₂ Tree.Written items parts) :
    (Tree.list items).Written (bracketed '[' ']' level parts) := by
  have hparts : List.Forall₂ IsItem items (parts.map (newLine (level + 1) ++ ·)) :=
    List.forall₂_map_right_iff.mpr (h.imp fun _ part hs =>
      ⟨newLine (level + 1), part, blank_newLine _, hs, rfl⟩)
  have hwritten := Tree.Written.list (items_written hparts (blank_newLine level))
  cases h with
  | nil => exact .list (.close blank_nil)
  | cons _ _ => simpa [bracketed] using hwritten

/-- A member as it stands on its line. -/
def IsLine (member : List Nat × Tree) (line : List Char) : Prop :=
  ∃ k s, UnitsWritten member.1 k ∧ member.2.Written s ∧ line = '"' :: (k ++ '"' :: ':' :: ' ' :: s)

theorem bracketed_members {members : List (List Nat × Tree)} {parts : List (List Char)}
    (level : Nat) (h : List.Forall₂ IsLine members parts) :
    (Tree.object members).Written (bracketed '{' '}' level parts) := by
  have hparts : List.Forall₂ IsMember members (parts.map (newLine (level + 1) ++ ·)) := by
    refine List.forall₂_map_right_iff.mpr (h.imp ?_)
    rintro _ _ ⟨k, s, hk, hs, rfl⟩
    exact ⟨newLine (level + 1), k, [' '], s, blank_newLine _, hk, by decide, hs, rfl⟩
  have hwritten := Tree.Written.object (members_written hparts (blank_newLine level))
  cases h with
  | nil => exact .object (.close blank_nil)
  | cons _ _ => simpa [bracketed] using hwritten

mutual

/-- The rendering with lines writes the tree. -/
theorem indentedAt_written (level : Nat) :
    ∀ document : Document, document.tree.Written (document.indentedAt level)
  | .bool b => boolWord_written b
  | .number n => natural_written n.toNat
  | .text s => quote_written s
  | .list items => bracketed_items level (indentedItems_written (level + 1) items)
  | .object members => bracketed_members level (indentedMembers_written (level + 1) members)

theorem indentedItems_written (level : Nat) : ∀ items : List Document,
    List.Forall₂ Tree.Written (itemTrees items) (indentedItems level items)
  | [] => .nil
  | item :: items => .cons (indentedAt_written level item) (indentedItems_written level items)

theorem indentedMembers_written (level : Nat) : ∀ members : List (String × Document),
    List.Forall₂ IsLine (memberTrees members) (indentedMembers level members)
  | [] => .nil
  | (key, document) :: members =>
    .cons ⟨_, _, escaped_written key.toList, indentedAt_written level document, by simp [quote]⟩
      (indentedMembers_written level members)

end

theorem indented_written (document : Document) : document.tree.Written document.indented :=
  indentedAt_written 0 document

/-! ### The only value -/

theorem isText_of_written {t : Tree} {s : List Char} (h : t.Written s) : t.IsText s :=
  ⟨[], s, [], blank_nil, h, blank_nil, by simp⟩

theorem toJson_isText (document : Document) (lines : Bool) :
    document.tree.IsText (document.toJson lines).toList := by
  rw [toJson, String.toList_ofList]
  cases lines with
  | false => exact isText_of_written document.compact_written
  | true => exact isText_of_written document.indented_written

/-- **Either rendering stands for the value of the document** and for no other. -/
theorem decodes_toJson (document : Document) (lines : Bool) {v : Value} :
    Decodes (document.toJson lines).toList v ↔ v = document.value := by
  have hdecodes : Decodes (document.toJson lines).toList document.value :=
    ⟨document.tree, document.toJson_isText lines, document.tree_denotes⟩
  exact ⟨fun hv => Decodes.unique hv hdecodes, fun hv => hv ▸ hdecodes⟩

end WebAcl.Document
