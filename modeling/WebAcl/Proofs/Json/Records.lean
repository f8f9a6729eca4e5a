import WebAcl.Proofs.Json.Reading
import WebAcl.Json.Shape
import Mathlib.Data.List.Nodup
import Mathlib.Data.List.Pairwise

/-! # Reading records

The members of a record stand in any order, some of them may be left out, and an open record may
hold others besides. Which trees write a record is said by its parts, without a reader. That a
reader takes them all goes back to two facts: storing one part and storing another are independent,
so the order does not matter, and storing a part that may be left out changes nothing at first.

* `Part`, `Fills`, `IsObjectOf`: the members that give the parts of an object.
* `Shape.read_takes`: a record is read off all of them.
* `Shape.Gives`, `Shape.read_admits`: what is read as a record, as an object or as a list, is gone
  through field by field, and nothing else is in it unless the record is open.
* `Place`, `Gives.swap`: another value at the place of a field changes that field alone. -/

namespace WebAcl.Json

variable {α σ : Type}

/-! ### Parts -/

/-- A part of an object: its key, whether it may be left out, and the trees that write it. -/
structure Part where
  name : String
  omittable : Prop
  form : Tree → Prop

/-- Members that give each part once, in any order, except that some are left out that may be.
Members with spare keys stand anywhere. -/
inductive Fills (spare : String → Prop) : List Part → List (List Nat × Tree) → Prop
  | close {parts : List Part} : (∀ part ∈ parts, part.omittable) → Fills spare parts []
  | part {before after : List Part} {part : Part} {t : Tree} {members : List (List Nat × Tree)} :
      part.form t → Fills spare (before ++ after) members →
      Fills spare (before ++ part :: after) ((utf16 part.name, t) :: members)
  | spare {parts : List Part} {key : String} {t : Tree} {members : List (List Nat × Tree)} :
      spare key → Fills spare parts members → Fills spare parts ((utf16 key, t) :: members)

/-- The part at a place may be given first. -/
theorem Fills.first {spare : String → Prop} {parts : List Part} {t : Tree}
    {members : List (List Nat × Tree)} (i : Fin parts.length) (hform : parts[i].form t)
    (h : Fills spare (parts.eraseIdx i) members) :
    Fills spare parts ((utf16 parts[i].name, t) :: members) := by
  rw [List.eraseIdx_eq_take_drop_succ] at h
  have hsplit : parts.take i ++ parts[i] :: parts.drop (i + 1) = parts := by simp
  have hfills := Fills.part hform h
  rwa [hsplit] at hfills

/-- An object that gives the parts; where strays are let in, it may hold any members under other
keys. -/
def IsObjectOf (strays : Bool) (parts : List Part) (t : Tree) : Prop :=
  ∃ members, t = .object members ∧
    Fills (fun key => strays = true ∧ key ∉ parts.map (·.name)) parts members

/-! ### Independent parts -/

/-- A part with what it does to a value. -/
structure Store (σ : Type) where
  part : Part
  put : σ → σ

namespace Store

/-- What all the parts do. -/
def fill (stores : List (Store σ)) (a : σ) : σ := stores.foldl (fun a store => store.put a) a

/-- The order of two parts does not matter. -/
def Commute (one other : Store σ) : Prop := ∀ a, one.put (other.put a) = other.put (one.put a)

instance : Std.Symm (@Commute σ) := ⟨fun _ _ h a => (h a).symm⟩

/-- The order of any two of the parts does not matter. -/
def Independent (stores : List (Store σ)) : Prop := stores.Pairwise Commute

theorem Independent.comm {stores : List (Store σ)} (h : Independent stores) {one other : Store σ}
    (hone : one ∈ stores) (hother : other ∈ stores) : Commute one other :=
  List.Pairwise.forall_of_forall (fun _ _ _ => rfl) h hone hother

/-- Any of the parts may be the first one. -/
theorem fill_middle {before after : List (Store σ)} {store : Store σ}
    (h : Independent (before ++ store :: after)) (a : σ) :
    fill (before ++ store :: after) a = fill (before ++ after) (store.put a) :=
  List.perm_middle.foldl_eq' (fun _ hone _ hother a => h.comm hother hone a) a

theorem fill_idle {stores : List (Store σ)} {a : σ} (h : ∀ store ∈ stores, store.put a = a) :
    fill stores a = a := by
  induction stores with
  | nil => rfl
  | cons store stores ih =>
    rw [fill, List.foldl_cons, h store List.mem_cons_self]
    exact ih fun other hother => h other (List.mem_cons_of_mem _ hother)

theorem map_part_middle {stores : List (Store σ)} {before after : List Part} {part : Part}
    (h : stores.map (·.part) = before ++ part :: after) :
    ∃ first store last, stores = first ++ store :: last ∧ store.part = part ∧
      (first ++ last).map (·.part) = before ++ after := by
  obtain ⟨first, others, rfl, rfl, hothers⟩ := List.map_eq_append_iff.mp h
  obtain ⟨store, last, rfl, rfl, rfl⟩ := List.map_eq_cons_iff.mp hothers
  exact ⟨first, store, last, rfl, rfl, List.map_append⟩

/-- Once a part has been stored, those that had nothing to say still have nothing to say. -/
theorem idle_of_middle {first last : List (Store σ)} {store : Store σ} {a : σ}
    (hfree : Independent (first ++ store :: last))
    (hidle : ∀ other ∈ first ++ store :: last, other.part.omittable → other.put a = a) :
    ∀ other ∈ first ++ last, other.part.omittable → other.put (store.put a) = store.put a := by
  intro other hother homittable
  have hmem : other ∈ first ++ store :: last :=
    List.perm_middle.mem_iff.mpr (List.mem_cons_of_mem _ hother)
  rw [hfree.comm hmem List.mem_append_cons_self, hidle other hmem homittable]

theorem Independent.middle {first last : List (Store σ)} {store : Store σ}
    (h : Independent (first ++ store :: last)) : Independent (first ++ last) :=
  h.sublist ((List.sublist_cons_self store last).append_left first)

end Store

/-! ### Objects with keys of any kind -/

namespace Reader

theorem walk_of_fills {member : σ → String → Reader σ} {depth : Nat} {spare : String → Prop}
    (hspare : ∀ key, ¬ spare key) {parts : List Part} {members : List (List Nat × Tree)}
    (h : Fills spare parts members) :
    ∀ {stores : List (Store σ)} {a : σ}, stores.map (·.part) = parts →
      (∀ store ∈ stores, ∀ a t, store.part.form t → ∃ reader,
        (member a store.part.name = colon >>= fun _ => reader) ∧
          reader.Takes depth t (store.put a)) →
      Store.Independent stores → (∀ store ∈ stores, store.part.omittable → store.put a = a) →
      Walk (Passes member depth) a members (Store.fill stores a) := by
  induction h with
  | close homittable =>
    rintro stores a rfl hmember hfree hidle
    rw [Store.fill_idle fun store hmem =>
      hidle store hmem (homittable _ (List.mem_map_of_mem hmem))]
    exact .nil
  | @part before after part t members hform _ ih =>
    intro stores a hparts hmember hfree hidle
    obtain ⟨first, store, last, rfl, rfl, hothers⟩ := Store.map_part_middle hparts
    have hpasses := hmember store List.mem_append_cons_self a t hform
    rw [Store.fill_middle hfree]
    refine .cons hpasses (ih hothers (fun other hother => hmember other ?_) hfree.middle
      (Store.idle_of_middle hfree hidle))
    exact List.perm_middle.mem_iff.mpr (List.mem_cons_of_mem _ hother)
  | spare hkey => exact absurd hkey (hspare _)

/-- An object is read off its parts, in whatever order they stand. -/
theorem map_takes_parts {member : σ → String → Reader σ} {start : σ} {depth : Nat}
    {stores : List (Store σ)} {t : Tree}
    (hmember : ∀ store ∈ stores, ∀ a t, store.part.form t → ∃ reader,
      (member a store.part.name = colon >>= fun _ => reader) ∧
        reader.Takes depth t (store.put a))
    (hfree : Store.Independent stores)
    (hidle : ∀ store ∈ stores, store.part.omittable → store.put start = start)
    (ht : IsObjectOf false (stores.map (·.part)) t) :
    (map member start).Takes (depth + 1) t (Store.fill stores start) := by
  obtain ⟨members, rfl, hfills⟩ := ht
  exact map_takes (walk_of_fills (fun key hkey => absurd hkey.1 (by decide)) hfills rfl hmember
    hfree hidle)

end Reader

/-! ### Records are taken -/

namespace Shape

open Reader

/-- The field takes what the part is written as, and stores what the store puts. -/
structure Serves (depth : Nat) (field : Field α) (store : Store α) : Prop where
  name : field.name = store.part.name
  given : field.presence = .required → ¬ store.part.omittable
  takes : ∀ t, store.part.form t → field.read.Takes depth t store.put

theorem serves_of {β : Type} {name : String} {presence : Presence} {reader : Reader β}
    {put : α → β → α} {b : β} {omittable : Prop} {form : Tree → Prop} {depth : Nat}
    (hgiven : presence = .required → ¬ omittable)
    (htakes : ∀ t, form t → reader.Takes depth t b) :
    Serves depth (.of name presence reader put) ⟨⟨name, omittable, form⟩, fun a => put a b⟩ :=
  ⟨rfl, hgiven, fun t ht => (htakes t ht).bind rfl⟩

theorem names_of_serves {depth : Nat} {fields : List (Field α)} {stores : List (Store α)}
    (h : List.Forall₂ (Serves depth) fields stores) :
    fields.map (·.name) = (stores.map (·.part)).map (·.name) := by
  induction h with
  | nil => rfl
  | cons hfield _ ih => simp only [List.map_cons, hfield.name, ih]

theorem exists_of_serves {depth : Nat} {fields : List (Field α)} {stores : List (Store α)}
    (h : List.Forall₂ (Serves depth) fields stores) :
    ∀ store ∈ stores, ∃ field ∈ fields, Serves depth field store := by
  induction h with
  | nil => exact nofun
  | @cons field store _ _ hfield _ ih =>
    intro other hother
    rcases List.mem_cons.mp hother with rfl | hother
    · exact ⟨field, List.mem_cons_self, hfield⟩
    · obtain ⟨found, hfound, hserves⟩ := ih other hother
      exact ⟨found, List.mem_cons_of_mem _ hfound, hserves⟩

/-- A field is found under its name. -/
theorem find?_name {fields : List (Field α)} (hnames : (fields.map (·.name)).Nodup)
    {field : Field α} (h : field ∈ fields) :
    fields.find? (·.name = field.name) = some field := by
  have hsome : (fields.find? (·.name = field.name)).isSome :=
    List.find?_isSome.mpr ⟨field, h, decide_eq_true rfl⟩
  obtain ⟨found, hfound⟩ := Option.isSome_iff_exists.mp hsome
  have hname : found.name = field.name := by simpa using List.find?_some hfound
  rwa [List.inj_on_of_nodup_map hnames (List.mem_of_find?_eq_some hfound) h hname] at hfound

/-- A field that has not occurred is read and stored. -/
theorem passes_field {shape : Shape α} {field : Field α} {depth : Nat} {progress : Progress α}
    {key : String} {t : Tree} {put : α → α}
    (hfind : shape.fields.find? (·.name = key) = some field) (hnew : key ∉ progress.seen)
    (htakes : field.read.Takes depth t put) :
    Passes shape.member depth progress key t ⟨put progress.value, key :: progress.seen⟩ := by
  refine ⟨field.read >>= fun update => pure ⟨update progress.value, key :: progress.seen⟩, ?_,
    htakes.bind rfl⟩
  rw [member, hfind]
  simp only [if_neg hnew]

/-- What stands under another name is passed over. -/
theorem passes_stray {shape : Shape α} (hopen : shape.isOpen = true) {key : String}
    (h : key ∉ shape.fieldNames) (depth : Nat) (progress : Progress α) (t : Tree) :
    Passes shape.member depth progress key t progress := by
  have hfind : shape.fields.find? (·.name = key) = none := by
    rw [List.find?_eq_none]
    intro field hfield heq
    exact h (List.mem_map.mpr ⟨field, hfield, by simpa using heq⟩)
  refine ⟨ignored >>= fun _ => pure progress, ?_, (ignored_takes t).bind rfl⟩
  rw [member, hfind]
  simp only [hopen, if_true]

/-- Member by member, in whatever order: the parts are stored, and those that may not be left out
have occurred. -/
theorem walk_of_fills {shape : Shape α} {depth : Nat} {all : List (Store α)}
    (h : List.Forall₂ (Serves depth) shape.fields all) (hnames : shape.fieldNames.Nodup)
    {spare : String → Prop}
    (hspare : ∀ key, spare key → shape.isOpen = true ∧ key ∉ shape.fieldNames)
    {parts : List Part} {members : List (List Nat × Tree)} (hfills : Fills spare parts members) :
    ∀ {stores : List (Store α)} (progress : Progress α), stores.map (·.part) = parts →
      stores ⊆ all → (stores.map (·.part.name)).Nodup → Store.Independent stores →
      (∀ store ∈ stores, store.part.omittable → store.put progress.value = progress.value) →
      (∀ store ∈ stores, store.part.name ∉ progress.seen) →
      ∃ seen, Walk (Passes shape.member depth) progress members
          ⟨Store.fill stores progress.value, seen⟩ ∧
        progress.seen ⊆ seen ∧
          ∀ store ∈ stores, ¬ store.part.omittable → store.part.name ∈ seen := by
  induction hfills with
  | close homittable =>
    rintro stores progress rfl - - - hidle -
    rw [Store.fill_idle fun store hmem =>
      hidle store hmem (homittable _ (List.mem_map_of_mem hmem))]
    exact ⟨progress.seen, .nil, fun _ h => h, fun store hmem hgiven =>
      absurd (homittable _ (List.mem_map_of_mem hmem)) hgiven⟩
  | @part before after part t members hform _ ih =>
    intro stores progress hparts hall hdistinct hfree hidle hnew
    obtain ⟨first, store, last, rfl, rfl, hothers⟩ := Store.map_part_middle hparts
    have hstore : store ∈ first ++ store :: last := List.mem_append_cons_self
    have hmem : first ++ last ⊆ first ++ store :: last := fun other hother =>
      List.perm_middle.mem_iff.mpr (List.mem_cons_of_mem _ hother)
    obtain ⟨field, hfield, hserves⟩ := exists_of_serves h store (hall hstore)
    have hfind := find?_name hnames hfield
    rw [hserves.name] at hfind
    rw [(List.perm_middle.map _).nodup_iff, List.map_cons, List.nodup_cons] at hdistinct
    obtain ⟨hother, hdistinct⟩ := hdistinct
    obtain ⟨seen, hwalk, hseen, hgiven⟩ := ih
      ⟨store.put progress.value, store.part.name :: progress.seen⟩ hothers
      (fun _ h => hall (hmem h)) hdistinct hfree.middle (Store.idle_of_middle hfree hidle)
      fun other hmem' => by
        rw [List.mem_cons, not_or]
        exact ⟨fun heq => hother (heq ▸ List.mem_map_of_mem hmem'), hnew other (hmem hmem')⟩
    refine ⟨seen, ?_, fun _ h => hseen (List.mem_cons_of_mem _ h), fun other hother => ?_⟩
    · rw [Store.fill_middle hfree]
      exact .cons (passes_field hfind (hnew _ hstore) (hserves.takes t hform)) hwalk
    · rcases List.mem_cons.mp (List.perm_middle.mem_iff.mp hother) with rfl | hother
      · exact fun _ => hseen List.mem_cons_self
      · exact hgiven other hother
  | @spare parts key t members hkey _ ih =>
    intro stores progress hparts hall hdistinct hfree hidle hnew
    obtain ⟨seen, hwalk, hseen, hgiven⟩ := ih progress hparts hall hdistinct hfree hidle hnew
    obtain ⟨hopen, hkey⟩ := hspare key hkey
    exact ⟨seen, .cons (passes_stray hopen hkey depth progress t) hwalk, hseen, hgiven⟩

theorem given_of_serves {depth : Nat} {fields : List (Field α)} {stores : List (Store α)}
    (h : List.Forall₂ (Serves depth) fields stores) {seen : List String}
    (hgiven : ∀ store ∈ stores, ¬ store.part.omittable → store.part.name ∈ seen) :
    ∀ field ∈ fields, field.presence = .required → field.name ∈ seen := by
  induction h with
  | nil => exact nofun
  | cons hfield _ ih =>
    intro other hother hrequired
    rcases List.mem_cons.mp hother with rfl | hother
    · exact hfield.name ▸ hgiven _ List.mem_cons_self (hfield.given hrequired)
    · exact ih (fun store hmem => hgiven store (List.mem_cons_of_mem _ hmem)) other hother hrequired

theorem missing?_eq_none {shape : Shape α} {depth : Nat} {stores : List (Store α)}
    (h : List.Forall₂ (Serves depth) shape.fields stores) {seen : List String}
    (hgiven : ∀ store ∈ stores, ¬ store.part.omittable → store.part.name ∈ seen) :
    shape.missing? seen = none := by
  rw [missing?, Option.map_eq_none_iff, List.find?_eq_none]
  intro field hfield hmissing
  simp only [Bool.and_eq_true, decide_eq_true_eq, Bool.not_eq_true',
    List.contains_eq_mem, decide_eq_false_iff_not] at hmissing
  exact hmissing.2 (given_of_serves h hgiven field hfield hmissing.1)

theorem read_takes_object {shape : Shape α} {depth : Nat} {members : List (List Nat × Tree)}
    {progress : Progress α}
    (hwalk : Walk (Passes shape.member depth) ⟨shape.start, []⟩ members progress)
    (hmissing : shape.missing? progress.seen = none) :
    shape.read.Takes (depth + 1) (.object members) progress.value := by
  intro blank s rest hblank hs hrest
  cases hs with
  | @object _ s hs =>
    have hlong := length_members hs
    have hread : membersFrom shape.member depth (s ++ rest) true ⟨shape.start, []⟩ (s ++ rest) =
        .ok (progress, rest) :=
      membersFrom_takes hwalk hs (by simp only [List.length_append]; omega)
    rw [List.cons_append, read, skipSpace_blank hblank (by decide)]
    simp only [nested, fromMembers, bind_apply, Reader.members, hread, hmissing, pure_apply]

/-- **A record is read off its parts**, in whatever order they stand. -/
theorem read_takes (shape : Shape α) {depth : Nat} {stores : List (Store α)} {strays : Bool}
    {t : Tree} (h : List.Forall₂ (Serves depth) shape.fields stores)
    (hnames : shape.fieldNames.Nodup) (hopen : strays = true → shape.isOpen = true)
    (hfree : Store.Independent stores)
    (hidle : ∀ store ∈ stores, store.part.omittable → store.put shape.start = shape.start)
    (ht : IsObjectOf strays (stores.map (·.part)) t) :
    shape.read.Takes (depth + 1) t (Store.fill stores shape.start) := by
  obtain ⟨members, rfl, hfills⟩ := ht
  have hdistinct := hnames
  rw [fieldNames, names_of_serves h, List.map_map] at hdistinct
  obtain ⟨seen, hwalk, -, hgiven⟩ := walk_of_fills h hnames
    (fun key hkey => ⟨hopen hkey.1, by rw [fieldNames, names_of_serves h]; exact hkey.2⟩) hfills
    ⟨shape.start, []⟩ rfl
    (fun _ h => h) hdistinct hfree hidle fun _ _ => List.not_mem_nil
  exact read_takes_object hwalk (missing?_eq_none h hgiven)

/-! ### What is read as a record -/

variable {shape : Shape α} {kind : Field α → Nat → Tree → (α → α) → Prop}

/-- One member: a field that has not occurred is stored, and what stands under another name is
passed over where the record is open. -/
inductive Step (shape : Shape α) (kind : Field α → Nat → Tree → (α → α) → Prop) (depth : Nat)
    (progress : Progress α) (key : String) (t : Tree) : Progress α → Prop
  | field {field : Field α} {put : α → α} :
      shape.fields.find? (·.name = key) = some field → key ∉ progress.seen →
      kind field depth t put →
      Step shape kind depth progress key t ⟨put progress.value, key :: progress.seen⟩
  | stray : shape.isOpen = true → key ∉ shape.fieldNames →
      Step shape kind depth progress key t progress

/-- Field by field: each one takes the next item, and those without an item keep their defaults. -/
inductive Filled (kind : Field α → Nat → Tree → (α → α) → Prop) (depth : Nat) :
    List (Field α) → List Tree → α → α → Prop
  | done {a : α} : Filled kind depth [] [] a a
  | item {field : Field α} {fields : List (Field α)} {t : Tree} {items : List Tree} {put : α → α}
      {a b : α} : kind field depth t put → Filled kind depth fields items (put a) b →
      Filled kind depth (field :: fields) (t :: items) a b
  | default {field : Field α} {fields : List (Field α)} {a b : α} : field.presence = .defaulted →
      Filled kind depth fields [] a b → Filled kind depth (field :: fields) [] a b

/-- What a tree gives as a record: an object whose required fields have occurred, or a list. -/
inductive Gives (shape : Shape α) (kind : Field α → Nat → Tree → (α → α) → Prop) :
    Nat → Tree → α → Prop
  | object {depth : Nat} {members : List (List Nat × Tree)} {progress : Progress α} :
      Walk (shape.Step kind depth) ⟨shape.start, []⟩ members progress →
      shape.missing? progress.seen = none →
      Gives shape kind (depth + 1) (.object members) progress.value
  | list {depth : Nat} {items : List Tree} {a : α} :
      Filled kind depth shape.fields items shape.start a →
      Gives shape kind (depth + 1) (.list items) a

theorem Step.passes {depth : Nat} {progress progress' : Progress α} {key : String} {t : Tree}
    (h : shape.Step kind depth progress key t progress')
    (htakes : ∀ field ∈ shape.fields, ∀ put, kind field depth t put →
      field.read.Takes depth t put) :
    Passes shape.member depth progress key t progress' := by
  cases h with
  | field hfind hnew hkind =>
    exact passes_field hfind hnew (htakes _ (List.mem_of_find?_eq_some hfind) _ hkind)
  | stray hopen hkey => exact passes_stray hopen hkey depth progress t

theorem member_admits (h : ∀ field ∈ shape.fields, field.read.Admits (kind field))
    (progress : Progress α) (key : String) :
    AdmitsMember (shape.member progress key) fun depth => shape.Step kind depth progress key := by
  unfold member
  split
  · next field hfind =>
    split
    · exact Or.inl ⟨_, rfl⟩
    · next hnew =>
      have hfield := h field (List.mem_of_find?_eq_some hfind)
      refine Or.inr ⟨_, rfl, (hfield.bind fun _ => Or.inl ⟨_, rfl⟩).imp ?_⟩
      rintro depth t progress' ⟨put, hkind, hput⟩
      rw [← pure_inj hput]
      exact .field hfind hnew hkind
  · next hfind =>
    have hother : key ∉ shape.fieldNames := by
      rw [fieldNames, List.mem_map]
      rintro ⟨field, hfield, rfl⟩
      simpa using List.find?_eq_none.mp hfind field hfield
    split
    · next hopen =>
      refine Or.inr ⟨_, rfl, (Admits.bind ignored_consistent fun _ => Or.inl ⟨_, rfl⟩).imp ?_⟩
      rintro depth t progress' ⟨-, -, hprogress⟩
      rw [← pure_inj hprogress]
      exact .stray hopen hother
    · exact Or.inl ⟨_, rfl⟩

theorem closeList_close {depth : Nat} {blank : List Char} (h : Blank blank) (rest : List Char) :
    closeList depth (blank ++ ']' :: rest) = .ok ((), rest) := by
  rw [closeList, skipSpace_blank h (by decide)]
  rfl

theorem closeList_items {items : List Tree} {isFirst : Bool} {s rest r : List Char} {depth : Nat}
    (h : ItemsWritten isFirst items s) (hread : closeList depth (s ++ rest) = .ok ((), r)) :
    r = rest ∧ items = [] := by
  cases h with
  | close hblank =>
    rw [List.append_assoc] at hread
    cases (closeList_close hblank rest).symm.trans hread
    exact ⟨rfl, rfl⟩
  | item hlead hs _ =>
    obtain ⟨c, s, rfl, hspace, -, hbracket, -⟩ := head_written hs
    cases hlead with
    | first hblank =>
      rw [List.append_assoc, List.append_assoc, List.cons_append, closeList,
        skipSpace_blank hblank hspace] at hread
      split at hread
      · cases hread
      · next heq => exact absurd (List.cons.inj heq).1 hbracket
      · split at hread <;> cases hread
      · cases hread
    | next hbefore hblank =>
      simp only [List.append_assoc, List.cons_append] at hread
      rw [closeList, skipSpace_blank hbefore (by decide)] at hread
      simp only at hread
      split at hread <;> cases hread

/-- Behind the items that the fields take stands the closing bracket. -/
theorem fromElementsAt_takes {depth : Nat} {fields : List (Field α)} {items : List Tree} {a b : α}
    (h : Filled kind depth fields items a b)
    (htakes : ∀ field ∈ fields, ∀ t put, kind field depth t put → field.read.Takes depth t put) :
    ∀ {place : Nat} {isFirst : Bool} {s rest : List Char}, ItemsWritten isFirst items s →
      ∃ blank, Blank blank ∧ shape.fromElementsAt fields place isFirst a depth (s ++ rest) =
        .ok (b, blank ++ ']' :: rest) := by
  induction h with
  | done =>
    rintro place isFirst _ rest (@⟨_, blank, hblank⟩)
    refine ⟨blank, hblank, ?_⟩
    rw [List.append_assoc]
    rfl
  | @item field fields t items put a b hkind _ ih =>
    intro place isFirst s rest hs
    cases hs with
    | item hlead hs htail =>
      have hread := htakes field List.mem_cons_self t put hkind blank_nil hs (ends_items htail rest)
      rw [List.nil_append] at hread
      rw [List.append_assoc, List.append_assoc, fromElementsAt, bind_apply,
        nextElement_item hlead hs]
      simp only [if_true, bind_apply, hread]
      exact ih (fun other hother => htakes other (List.mem_cons_of_mem _ hother)) htail
  | @default field fields a b hpresence _ ih =>
    intro place isFirst s rest hs
    cases hs with
    | close hblank =>
      rw [List.append_assoc, fromElementsAt, bind_apply, nextElement_close hblank]
      simp only [Bool.false_eq_true, if_false, hpresence, if_true]
      exact ih (fun other hother => htakes other (List.mem_cons_of_mem _ hother))
        (.close (w := []) blank_nil)

/-- Field by field: each one takes the next item as long as there are items. -/
theorem fromElementsAt_admits {depth : Nat} {b : α} {rest r : List Char} :
    ∀ {fields : List (Field α)} {place : Nat} {isFirst : Bool} {a : α} {items : List Tree}
      {s : List Char}, (∀ field ∈ fields, field.read.Admits (kind field)) →
      ItemsWritten isFirst items s →
      shape.fromElementsAt fields place isFirst a depth (s ++ rest) = .ok (b, r) →
      ∃ read others isFirst s', items = read ++ others ∧ Filled kind depth fields read a b ∧
        ItemsWritten isFirst others s' ∧ r = s' ++ rest
  | [], _, isFirst, _, items, s, _, hs, hread => by
    cases hread
    exact ⟨[], items, isFirst, s, rfl, .done, hs, rfl⟩
  | field :: fields, _, _, _, [], _, h, .close hblank, hread => by
    rw [fromElementsAt, bind_apply, List.append_assoc, nextElement_close hblank] at hread
    simp only [Bool.false_eq_true, if_false] at hread
    split at hread
    · next hpresence =>
      obtain ⟨read, others, isFirst, s', hitems, hfilled, hothers, hr⟩ :=
        fromElementsAt_admits (s := [']'])
          (fun field hfield => h field (List.mem_cons_of_mem _ hfield)) (.close blank_nil) hread
      obtain ⟨rfl, rfl⟩ := List.append_eq_nil_iff.mp hitems.symm
      exact ⟨[], [], isFirst, s', rfl, .default hpresence hfilled, hothers, hr⟩
    · cases hread
  | field :: fields, _, _, _, t :: _, _, h, .item hlead hs htail, hread => by
    rw [fromElementsAt, bind_apply, List.append_assoc, List.append_assoc,
      nextElement_item hlead hs] at hread
    simp only [if_true, bind_apply] at hread
    split at hread
    · next put r' hfield =>
      obtain ⟨rfl, hkind⟩ :=
        h field List.mem_cons_self blank_nil hs (ends_items htail rest) hfield
      obtain ⟨read, others, isFirst, s', rfl, hfilled, hothers, hr⟩ := fromElementsAt_admits
        (fun field hfield => h field (List.mem_cons_of_mem _ hfield)) htail hread
      exact ⟨t :: read, others, isFirst, s', rfl, .item hkind hfilled, hothers, hr⟩
    · cases hread

theorem fromElements_admits (h : ∀ field ∈ shape.fields, field.read.Admits (kind field))
    {depth : Nat} {items : List Tree} {s rest r : List Char} {a : α}
    (hs : ItemsWritten true items s) (hread : shape.fromElements depth (s ++ rest) = .ok (a, r)) :
    r = rest ∧ shape.Gives kind (depth + 1) (.list items) a := by
  simp only [fromElements, bind_apply, pure_apply] at hread
  split at hread
  · next b r' hfields =>
    obtain ⟨read, others, isFirst, s', rfl, hfilled, hothers, rfl⟩ :=
      fromElementsAt_admits h hs hfields
    split at hread
    · next hclose =>
      cases hread
      obtain ⟨hrest, rfl⟩ := closeList_items hothers hclose
      rw [List.append_nil]
      exact ⟨hrest, .list hfilled⟩
    · cases hread
  · cases hread

theorem fromMembers_admits (h : ∀ field ∈ shape.fields, field.read.Admits (kind field))
    {depth : Nat} {members : List (List Nat × Tree)} {s rest r : List Char} {a : α}
    (hs : MembersWritten true members s)
    (hread : shape.fromMembers depth (s ++ rest) = .ok (a, r)) :
    r = rest ∧ shape.Gives kind (depth + 1) (.object members) a := by
  simp only [fromMembers, bind_apply, Reader.members] at hread
  split at hread
  · next progress r' hprogress =>
    obtain ⟨rfl, hwalk⟩ := membersFrom_admits (member_admits h) hs hprogress
    cases hmissing : shape.missing? progress.seen with
    | some name =>
      rw [hmissing] at hread
      cases hread
    | none =>
      rw [hmissing] at hread
      cases hread
      exact ⟨rfl, .object hwalk hmissing⟩
  · cases hread

/-- **What is read as a record** is what the tree gives as one. -/
theorem read_admits (h : ∀ field ∈ shape.fields, field.read.Admits (kind field)) :
    shape.read.Admits (shape.Gives kind) := by
  intro depth t blank s rest r a hblank hs hrest hread
  obtain ⟨c, s, rfl, hspace, -⟩ := head_written hs
  rw [List.cons_append, read, skipSpace_blank hblank hspace] at hread
  split at hread
  · cases hread
  · next heq =>
    obtain ⟨rfl, rfl⟩ := List.cons.inj heq
    obtain ⟨items, rfl, hitems⟩ := written_list hs
    cases depth with
    | zero => cases hread
    | succ depth => exact fromElements_admits h hitems hread
  · next heq =>
    obtain ⟨rfl, rfl⟩ := List.cons.inj heq
    obtain ⟨members, rfl, hmembers⟩ := written_object hs
    cases depth with
    | zero => cases hread
    | succ depth => exact fromMembers_admits h hmembers hread
  · cases hread

/-- What a tree gives as a record is read off it. -/
theorem Gives.takes {depth : Nat} {t : Tree} {a : α} (h : shape.Gives kind depth t a)
    (htakes : ∀ field ∈ shape.fields, ∀ depth t put, kind field depth t put →
      field.read.Takes depth t put) : shape.read.Takes depth t a := by
  cases h with
  | object hwalk hmissing =>
    refine read_takes_object (hwalk.imp fun _ _ _ _ hstep => hstep.passes ?_) hmissing
    exact fun field hfield put => htakes field hfield _ _ put
  | @list depth items a hfilled =>
    intro blank s rest hblank hs hrest
    cases hs with
    | @list _ s hs =>
      obtain ⟨blank', hblank', hread⟩ : ∃ blank', Blank blank' ∧
          shape.fromElementsAt shape.fields 0 true shape.start depth (s ++ rest) =
            .ok (a, blank' ++ ']' :: rest) :=
        fromElementsAt_takes hfilled (fun field hfield => htakes field hfield depth) hs
      rw [List.cons_append, read, skipSpace_blank hblank (by decide)]
      simp only [nested, fromElements, bind_apply, hread, closeList_close hblank', pure_apply]

/-- A record is read off the tree alone if each of its fields is. -/
theorem read_consistent (h : ∀ field ∈ shape.fields, field.read.Consistent) :
    shape.read.Consistent :=
  have hgives : shape.read.Admits (shape.Gives fun field => field.read.Takes) := read_admits h
  hgives.imp fun _ _ _ hgives => hgives.takes fun _ _ _ _ _ => id

end Shape

end WebAcl.Json
