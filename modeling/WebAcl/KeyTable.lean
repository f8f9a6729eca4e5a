/-! # Tables ordered by key

A table holds at most one value for each text key and lists its entries by key, in code point
order. The order is part of the type, so two tables with the same entries are equal however they
were filled.

* `KeyTable.insert`: the value of a key is replaced, or the key finds its place.
* `KeyTable.get?`: the value of a key.
* `get?_insert`, `get?_insertNew`: what an insertion does to the values.
* `contains_insert`, `contains_insertNew`: what it does to the keys. -/

namespace WebAcl

/-- Keys with their values, in strictly increasing order of the keys. -/
structure KeyTable (α : Type) where
  entries : List (String × α)
  ordered : entries.Pairwise (·.1 < ·.1)

namespace KeyTable

variable {α : Type}

/-- The list `entries` with `value` at `key`. -/
def insertEntry (key : String) (value : α) : List (String × α) → List (String × α)
  | [] => [(key, value)]
  | entry :: entries =>
    if key < entry.1 then (key, value) :: entry :: entries
    else if key = entry.1 then (key, value) :: entries
    else entry :: insertEntry key value entries

theorem mem_insertEntry {key : String} {value : α} {e : String × α} :
    ∀ {entries : List (String × α)}, e ∈ insertEntry key value entries →
      e = (key, value) ∨ e ∈ entries
  | [], h => by simpa [insertEntry] using h
  | entry :: entries, h => by
    unfold insertEntry at h
    split at h
    · simpa using h
    · split at h
      · rcases List.mem_cons.mp h with h | h
        · exact .inl h
        · exact .inr (List.mem_cons_of_mem _ h)
      · rcases List.mem_cons.mp h with h | h
        · exact .inr (h ▸ List.mem_cons_self)
        · rcases mem_insertEntry h with h | h
          · exact .inl h
          · exact .inr (List.mem_cons_of_mem _ h)

theorem insertEntry_ordered {key : String} {value : α} :
    ∀ {entries : List (String × α)}, entries.Pairwise (·.1 < ·.1) →
      (insertEntry key value entries).Pairwise (·.1 < ·.1)
  | [], _ => by simp [insertEntry]
  | entry :: entries, h => by
    obtain ⟨hhead, htail⟩ := List.pairwise_cons.mp h
    unfold insertEntry
    split
    · next hlt =>
      refine List.pairwise_cons.mpr ⟨fun e he => ?_, h⟩
      rcases List.mem_cons.mp he with rfl | he
      · exact hlt
      · exact String.lt_trans hlt (hhead e he)
    · next hge =>
      split
      · next heq =>
        exact List.pairwise_cons.mpr ⟨fun e he => by simpa [heq] using hhead e he, htail⟩
      · next hne =>
        refine List.pairwise_cons.mpr ⟨fun e he => ?_, insertEntry_ordered htail⟩
        rcases mem_insertEntry he with rfl | he
        · exact Std.lt_of_le_of_ne (String.not_lt.mp hge) fun h => hne h.symm
        · exact hhead e he

/-- The table without entries. -/
def empty : KeyTable α := ⟨[], .nil⟩

/-- The table with `value` at `key`, in place of the value that was there. -/
def insert (table : KeyTable α) (key : String) (value : α) : KeyTable α :=
  ⟨insertEntry key value table.entries, insertEntry_ordered table.ordered⟩

/-- The value at a key. -/
def get? (table : KeyTable α) (key : String) : Option α := table.entries.lookup key

/-- Whether a key has a value. -/
def contains (table : KeyTable α) (key : String) : Bool := (table.get? key).isSome

/-- The table with `value` at `key`, unless the key already has one. -/
def insertNew (table : KeyTable α) (key : String) (value : α) : KeyTable α :=
  if table.contains key then table else table.insert key value

theorem lookup_behind {key other : String} {value : α} {entries : List (String × α)}
    (h : other ≠ key) : ((key, value) :: entries).lookup other = entries.lookup other := by
  rw [List.lookup_cons, beq_false_of_ne h]

theorem lookup_insertEntry {key other : String} {value : α} :
    ∀ {entries : List (String × α)},
      (insertEntry key value entries).lookup other =
        if other = key then some value else entries.lookup other
  | [] => by
    by_cases h : other = key
    · simp [insertEntry, h]
    · simp [insertEntry, lookup_behind h, h]
  | (first, old) :: entries => by
    have ih := @lookup_insertEntry key other value entries
    unfold insertEntry
    by_cases hk : other = key
    · subst hk
      split
      · simp
      · split
        · simp
        · next hne => simp [lookup_behind hne, ih]
    · rw [if_neg hk] at ih ⊢
      split
      · exact lookup_behind hk
      · split
        · next heq =>
          have hf : other ≠ first := fun h => hk (h.trans heq.symm)
          rw [lookup_behind hk, lookup_behind hf]
        · rw [List.lookup_cons, List.lookup_cons, ih]

@[simp] theorem get?_empty (key : String) : (empty : KeyTable α).get? key = none := rfl

/-- An insertion gives its key the value and leaves the other keys alone. -/
theorem get?_insert (table : KeyTable α) (key other : String) (value : α) :
    (table.insert key value).get? other = if other = key then some value else table.get? other :=
  lookup_insertEntry

/-- A new value finds its place only where there was none. -/
theorem get?_insertNew (table : KeyTable α) (key other : String) (value : α) :
    (table.insertNew key value).get? other =
      if other = key then some ((table.get? key).getD value) else table.get? other := by
  unfold insertNew contains
  cases hget : table.get? key with
  | none => simp [get?_insert]
  | some old =>
    by_cases h : other = key
    · subst h
      simp [hget]
    · simp [h]

@[simp] theorem contains_empty (key : String) : (empty : KeyTable α).contains key = false := rfl

theorem contains_insert (table : KeyTable α) (key other : String) (value : α) :
    (table.insert key value).contains other ↔ table.contains other ∨ key = other := by
  rw [contains, get?_insert]
  by_cases h : other = key
  · simp [h]
  · simp [h, Ne.symm h, contains]

theorem contains_insertNew (table : KeyTable α) (key other : String) (value : α) :
    (table.insertNew key value).contains other ↔ table.contains other ∨ key = other := by
  rw [contains, get?_insertNew]
  by_cases h : other = key
  · simp [h]
  · simp [h, Ne.symm h, contains]

/-- The number of entries. -/
def size (table : KeyTable α) : Nat := table.entries.length

end KeyTable

end WebAcl
