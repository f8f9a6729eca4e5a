import WebAcl.Proofs.Json.Records

/-! # Places in records

The value of a field stands behind its name in an object, or among the items of a list at the place
of the field. If the whole is read as a record, the value there is what its field accepts. And if
another value is as good for the field and no other field minds, the whole with that value is read
as well, and the record is the one from before except for what the value does.

* `Shape.Gives.holds`: what stands at the place of a field.
* `Place`, `Shape.Gives.swap`: another value at the same place. -/

namespace WebAcl.Json

/-- The values of a field: the members under its name, or the item at its place. -/
def Tree.HasField (t : Tree) (names : List String) (name : String) (value : Tree) : Prop :=
  match t with
  | .object members => (utf16 name, value) ∈ members
  | .list items => ∃ i : Nat, names[i]? = some name ∧ items[i]? = some value
  | _ => False

/-- What stands around the value of a field. -/
inductive Place (names : List String) (name : String) : (Tree → Tree) → Prop
  | member {before after : List (List Nat × Tree)} : name ∈ names →
      Place names name fun value => .object (before ++ (utf16 name, value) :: after)
  | item {before after : List Tree} : names[before.length]? = some name →
      Place names name fun value => .list (before ++ value :: after)

theorem Place.mem {names : List String} {name : String} {fill : Tree → Tree}
    (h : Place names name fill) : name ∈ names := by
  cases h with
  | member hname => exact hname
  | item hname => exact List.mem_of_getElem? hname

theorem Place.hasField {names : List String} {name : String} {fill : Tree → Tree}
    (h : Place names name fill) (value : Tree) : (fill value).HasField names name value := by
  cases h with
  | member => exact List.mem_append_cons_self
  | item hname => exact ⟨_, hname, by simp⟩

theorem items_written_at {t : Tree} {after : List Tree} :
    ∀ {before : List Tree} {isFirst : Bool} {s : List Char},
      ItemsWritten isFirst (before ++ t :: after) s → ∃ s, t.Written s
  | [], _, _, .item _ hs _ => ⟨_, hs⟩
  | _ :: _, _, _, .item _ _ hr => items_written_at hr

theorem members_written_at {units : List Nat} {t : Tree} {after : List (List Nat × Tree)} :
    ∀ {before : List (List Nat × Tree)} {isFirst : Bool} {s : List Char},
      MembersWritten isFirst (before ++ (units, t) :: after) s → ∃ s, t.Written s
  | [], _, _, .member _ _ _ _ hs _ => ⟨_, hs⟩
  | _ :: _, _, _, .member _ _ _ _ _ hr => members_written_at hr

theorem Place.written {names : List String} {name : String} {fill : Tree → Tree}
    (h : Place names name fill) {t : Tree} {s : List Char} (hs : (fill t).Written s) :
    ∃ s, t.Written s := by
  cases h with
  | member =>
    cases hs with
    | object hs => exact members_written_at hs
  | item =>
    cases hs with
    | list hs => exact items_written_at hs

namespace Shape

open Reader

variable {α : Type} {shape : Shape α} {kind : Field α → Nat → Tree → (α → α) → Prop}

theorem Filled.exists_of_getElem? {depth : Nat} {fields : List (Field α)} {items : List Tree}
    {a b : α} (h : Filled kind depth fields items a b) :
    ∀ {i : Nat} {name : String} {value : Tree}, (fields.map (·.name))[i]? = some name →
      items[i]? = some value →
      ∃ field ∈ fields, field.name = name ∧ ∃ put, kind field depth value put := by
  induction h with
  | done => exact nofun
  | @item field fields t items put a b hkind _ ih =>
    intro i name value hname hvalue
    cases i with
    | zero =>
      cases hname
      cases hvalue
      exact ⟨field, List.mem_cons_self, rfl, put, hkind⟩
    | succ i =>
      obtain ⟨other, hother, hfound⟩ := ih hname hvalue
      exact ⟨other, List.mem_cons_of_mem _ hother, hfound⟩
  | default => exact nofun

/-- **What stands at the place of a field** is what the field accepts. -/
theorem Gives.holds {depth : Nat} {t : Tree} {a : α} (h : shape.Gives kind (depth + 1) t a)
    {name : String} {value : Tree} (hname : name ∈ shape.fieldNames)
    (hfield : t.HasField shape.fieldNames name value) :
    ∃ field ∈ shape.fields, field.name = name ∧ ∃ put, kind field depth value put := by
  cases h with
  | object hwalk =>
    obtain ⟨progress, key, progress', hkey, hstep⟩ := hwalk.step_of_mem hfield
    obtain rfl := utf16_inj.mp hkey
    cases hstep with
    | @field field put hfind _ hkind =>
      exact ⟨field, List.mem_of_find?_eq_some hfind, by simpa using List.find?_some hfind, put,
        hkind⟩
    | stray _ hother => exact absurd hname hother
  | list hfilled =>
    obtain ⟨i, hi, hitem⟩ := hfield
    exact hfilled.exists_of_getElem? hi hitem

/-! ### Another value -/

/-- Where `value` is accepted for the field, so is `value'`, which does the same and then `put`; the
other fields do their part before or after it. -/
structure Swap (shape : Shape α) (kind : Field α → Nat → Tree → (α → α) → Prop) (depth : Nat)
    (name : String) (value value' : Tree) (put : α → α) : Prop where
  own : ∀ field ∈ shape.fields, field.name = name → ∀ update, kind field depth value update →
    ∃ update', kind field depth value' update' ∧ ∀ a, update' a = put (update a)
  other : ∀ field ∈ shape.fields, field.name ≠ name → ∀ t update, kind field depth t update →
    ∀ a, update (put a) = put (update a)

variable {depth : Nat} {name : String} {value value' : Tree} {put : α → α}

/-- Once the field has occurred, the members that follow may come after `put` as well. -/
theorem Swap.walk_put (h : shape.Swap kind depth name value value' put)
    {members : List (List Nat × Tree)} {progress progress' : Progress α}
    (hwalk : Walk (shape.Step kind depth) progress members progress') (hseen : name ∈ progress.seen) :
    Walk (shape.Step kind depth) ⟨put progress.value, progress.seen⟩ members
      ⟨put progress'.value, progress'.seen⟩ := by
  induction hwalk with
  | nil => exact .nil
  | @cons progress _ _ key t members hstep _ ih =>
    cases hstep with
    | @field field update hfind hnew hkind =>
      have hkey : field.name = key := by simpa using List.find?_some hfind
      -- a field that occurs now is not the one that has occurred
      have hother : field.name ≠ name := fun heq => hnew (hkey ▸ heq ▸ hseen)
      have hcomm := h.other field (List.mem_of_find?_eq_some hfind) hother t update hkind
      refine .cons (.field hfind hnew hkind) ?_
      rw [hcomm]
      exact ih (List.mem_cons_of_mem _ hseen)
    | stray hopen hkey => exact .cons (.stray hopen hkey) (ih hseen)

theorem Swap.walk (h : shape.Swap kind depth name value value' put) (hname : name ∈ shape.fieldNames)
    {after : List (List Nat × Tree)} : ∀ {before : List (List Nat × Tree)}
      {progress progress' : Progress α},
      Walk (shape.Step kind depth) progress (before ++ (utf16 name, value) :: after) progress' →
      Walk (shape.Step kind depth) progress (before ++ (utf16 name, value') :: after)
        ⟨put progress'.value, progress'.seen⟩
  | [], progress, progress', hwalk => by
    rw [List.nil_append] at hwalk ⊢
    generalize hunits : utf16 name = units at hwalk ⊢
    cases hwalk with
    | cons hstep hrest =>
      obtain rfl := utf16_inj.mp hunits
      cases hstep with
      | @field field update hfind hnew hkind =>
        have hfield : field.name = name := by simpa using List.find?_some hfind
        obtain ⟨update', hkind', hupdate⟩ :=
          h.own field (List.mem_of_find?_eq_some hfind) hfield update hkind
        refine .cons (.field hfind hnew hkind') ?_
        rw [hupdate]
        exact h.walk_put hrest List.mem_cons_self
      | stray _ hother => exact absurd hname hother
  | _ :: _, _, _, .cons hstep hrest => .cons hstep (h.walk hname hrest)

theorem Swap.filled_put (h : shape.Swap kind depth name value value' put) {fields : List (Field α)}
    {items : List Tree} {a b : α} (hfilled : Filled kind depth fields items a b)
    (hfields : fields ⊆ shape.fields) (hother : name ∉ fields.map (·.name)) :
    Filled kind depth fields items (put a) (put b) := by
  induction hfilled with
  | done => exact .done
  | item hkind _ ih =>
    obtain ⟨hfield, hfields⟩ := List.cons_subset.mp hfields
    obtain ⟨hne, hother⟩ := not_or.mp (mt List.mem_cons.mpr hother)
    refine .item hkind ?_
    rw [h.other _ hfield (Ne.symm hne) _ _ hkind]
    exact ih hfields hother
  | default hpresence _ ih =>
    exact .default hpresence (ih (List.cons_subset.mp hfields).2
      (not_or.mp (mt List.mem_cons.mpr hother)).2)

theorem Swap.filled (h : shape.Swap kind depth name value value' put) {after : List Tree} :
    ∀ {before : List Tree} {fields : List (Field α)} {a b : α},
      fields ⊆ shape.fields → (fields.map (·.name)).Nodup →
      (fields.map (·.name))[before.length]? = some name →
      Filled kind depth fields (before ++ value :: after) a b →
      Filled kind depth fields (before ++ value' :: after) a (put b)
  | [], _ :: _, _, _, hfields, hnames, hname, .item hkind hfilled => by
    obtain ⟨hfield, hfields⟩ := List.cons_subset.mp hfields
    obtain ⟨hother, -⟩ := List.nodup_cons.mp hnames
    obtain rfl := Option.some.inj hname
    obtain ⟨update', hkind', hupdate⟩ := h.own _ hfield rfl _ hkind
    refine .item hkind' ?_
    rw [hupdate]
    exact h.filled_put hfilled hfields hother
  | _ :: _, _ :: _, _, _, hfields, hnames, hname, .item hkind hfilled =>
    .item hkind (h.filled (List.cons_subset.mp hfields).2 (List.nodup_cons.mp hnames).2 hname hfilled)

/-- **Another value at the place of a field** gives the record from before, changed by what the
value does. -/
theorem Gives.swap {fill : Tree → Tree} {a : α}
    (h : shape.Gives kind (depth + 1) (fill value) a) (hplace : Place shape.fieldNames name fill)
    (hnames : shape.fieldNames.Nodup) (hswap : shape.Swap kind depth name value value' put) :
    shape.Gives kind (depth + 1) (fill value') (put a) := by
  cases hplace with
  | member hname =>
    cases h with
    | object hwalk hmissing =>
      have hgives := Gives.object (hswap.walk hname hwalk) hmissing
      exact hgives
  | item hname =>
    cases h with
    | list hfilled => exact .list (hswap.filled (List.Subset.refl _) hnames hname hfilled)

end Shape

end WebAcl.Json
