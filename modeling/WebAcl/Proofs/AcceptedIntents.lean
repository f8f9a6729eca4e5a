import WebAcl.Proofs.GeneratedNames
import WebAcl.Proofs.Json.Places
import WebAcl.Proofs.Json.Values
import WebAcl.Intents.Reading

/-! # What is accepted as intents

What the readers of a document accept, whatever the text. Most values are read off their trees alone
(`Consistent`). Of the managed groups, the limits and the document itself it is said field by field
what stands there and what it does to the record.

* `ManagedIntent.read_admits`, `ThrottleLimits.read_admits`, `Intents.read_admits`: what is read. -/

namespace WebAcl

open Json Json.Reader

theorem of_admits {α β : Type} {reader : Reader β} {kind : Nat → Tree → β → Prop}
    (h : reader.Admits kind) (name : String) (presence : Presence) (put : α → β → α) :
    (Field.of name presence reader put).read.Admits fun depth t update =>
      ∃ b, kind depth t b ∧ update = fun a => put a b := by
  refine (h.bind fun _ => Or.inl ⟨_, rfl⟩).imp ?_
  rintro depth t update ⟨b, hb, hupdate⟩
  exact ⟨b, hb, (pure_inj hupdate).symm⟩

theorem of_consistent {α β : Type} {reader : Reader β} (h : reader.Consistent) (name : String)
    (presence : Presence) (put : α → β → α) :
    (Field.of name presence reader put).read.Consistent :=
  h.bind fun _ => Or.inl ⟨_, rfl⟩

/-! ### Configurations and bodies -/

theorem Visibility.read_consistent : Visibility.read.Consistent := by
  refine Shape.read_consistent ?_
  simp only [Visibility.shape, List.forall_mem_cons]
  exact ⟨of_consistent boolean_consistent _ _ _, of_consistent boolean_consistent _ _ _,
    of_consistent string_consistent _ _ _, List.forall_mem_nil _⟩

theorem Config.read_consistent : Config.read.Consistent := by
  refine Shape.read_consistent ?_
  simp only [Config.shape, List.forall_mem_cons]
  exact ⟨of_consistent string_consistent _ _ _, of_consistent (variant_consistent _) _ _ _,
    of_consistent (variant_consistent _) _ _ _, of_consistent string_consistent _ _ _,
    of_consistent Visibility.read_consistent _ _ _, List.forall_mem_nil _⟩

theorem ResponseBody.read_consistent : ResponseBody.read.Consistent := by
  refine Shape.read_consistent ?_
  simp only [ResponseBody.shape, List.forall_mem_cons]
  exact ⟨of_consistent string_consistent _ _ _, of_consistent (variant_consistent _) _ _ _,
    List.forall_mem_nil _⟩

theorem readBodies_consistent : readBodies.Consistent :=
  map_consistent fun _ _ =>
    Or.inr ⟨_, rfl, ResponseBody.read_consistent.bind fun _ => Or.inl ⟨_, rfl⟩⟩

/-! ### Managed groups -/

theorem Exclusions.read_consistent : Exclusions.read.Consistent := by
  refine map_consistent fun exclusions key => ?_
  rcases choose_cases ManagedGroup.labelled key with ⟨group, -, hgroup⟩ | ⟨fault, hfault⟩
  · refine Or.inr ⟨list string >>= fun names => pure (exclusions.insert group names), ?_,
      (list_consistent string_consistent).bind fun _ => Or.inl ⟨_, rfl⟩⟩
    simp only [hgroup]
    rfl
  · refine Or.inl ⟨fault, ?_⟩
    simp only [hfault]
    rfl

theorem Selection.read_consistent : Selection.read.Consistent := by
  refine Value.read_consistent.bind fun value => ?_
  cases Selection.ofValue? value with
  | none => exact Or.inr ⟨_, rfl⟩
  | some selection => exact Or.inl ⟨selection, rfl⟩

/-- What a tree gives as managed groups. -/
def ManagedIntent.Gives : Nat → Tree → ManagedIntent → Prop :=
  ManagedIntent.shape.Gives fun field => field.read.Takes

theorem ManagedIntent.read_admits : ManagedIntent.read.Admits ManagedIntent.Gives := by
  refine Shape.read_admits ?_
  simp only [ManagedIntent.shape, List.forall_mem_cons]
  exact ⟨of_consistent Selection.read_consistent _ _ _,
    of_consistent Exclusions.read_consistent _ _ _, List.forall_mem_nil _⟩

theorem ManagedIntent.Gives.takes {depth : Nat} {t : Tree} {managed : ManagedIntent}
    (h : ManagedIntent.Gives depth t managed) : ManagedIntent.read.Takes depth t managed :=
  Shape.Gives.takes h fun _ _ _ _ _ => id

/-! ### Limits -/

/-- The literal of a natural number below `2 ^ 64`. -/
def IsLimit (t : Tree) (limit : UInt64) : Prop :=
  ∃ l : Literal, t = .number l ∧ l.number? = some (.natural limit)

theorem IsLimit.takes {t : Tree} {limit : UInt64} (h : IsLimit t limit) {depth : Nat} :
    Reader.limit.Takes depth t limit := by
  obtain ⟨l, rfl, hl⟩ := h
  exact limit_takes hl

/-- A field for a limit: `null` or a limit stands there, and it becomes the limit of the throttle. -/
def ThrottleLimits.FieldGives (field : Json.Field ThrottleLimits) (depth : Nat) (t : Tree)
    (update : ThrottleLimits → ThrottleLimits) : Prop :=
  ∃ preset limit, field.name = Preset.field preset ∧ Optionally (fun _ => IsLimit) depth t limit ∧
    update = fun limits => limits.insert preset limit

/-- What a tree gives as limits. -/
def ThrottleLimits.Gives : Nat → Tree → ThrottleLimits → Prop :=
  ThrottleLimits.shape.Gives ThrottleLimits.FieldGives

theorem ThrottleLimits.read_admits : ThrottleLimits.read.Admits ThrottleLimits.Gives := by
  refine Shape.read_admits fun field hfield => ?_
  obtain ⟨preset, -, rfl⟩ := List.mem_map.mp hfield
  have hlimit : Reader.limit.Admits fun _ => IsLimit := limit_admits
  refine (of_admits (optional_admits hlimit) _ _ _).imp ?_
  rintro depth t update ⟨limit, hgives, rfl⟩
  exact ⟨preset, limit, rfl, hgives, rfl⟩

theorem Preset.field_inj {first second : Preset} (h : first.field = second.field) :
    first = second :=
  List.inj_on_of_nodup_map (show (Preset.all.map Preset.field).Nodup by decide)
    (Preset.mem_all first) (Preset.mem_all second) h

theorem ThrottleLimits.Gives.takes {depth : Nat} {t : Tree} {limits : ThrottleLimits}
    (h : ThrottleLimits.Gives depth t limits) : ThrottleLimits.read.Takes depth t limits := by
  refine Shape.Gives.takes h fun field hfield depth t update hgives => ?_
  obtain ⟨preset, -, rfl⟩ := List.mem_map.mp hfield
  obtain ⟨other, limit, hname, hlimit, rfl⟩ := hgives
  obtain rfl := Preset.field_inj hname
  exact (hlimit.takes fun _ h => h.takes).bind rfl

/-! ### Documents -/

namespace Intents

/-- What stands in a field of a document, and what it does to the intents. -/
inductive FieldGives (depth : Nat) : String → Tree → (Intents → Intents) → Prop
  | config {t : Tree} {config : Config} : Config.read.Takes depth t config →
      FieldGives depth "config" t fun intents => { intents with config := config }
  | managedRules {t : Tree} {managed : Option ManagedIntent} :
      Optionally ManagedIntent.Gives depth t managed →
      FieldGives depth "managedRules" t fun intents => { intents with managed := managed }
  | ipBlocklist {t : Tree} {addresses : Option (List String)} :
      (list string).optional.Takes depth t addresses →
      FieldGives depth "ipBlocklist" t fun intents => { intents with blocklist := addresses }
  | throttle {t : Tree} {limits : ThrottleLimits} : ThrottleLimits.Gives depth t limits →
      FieldGives depth "throttle" t fun intents => { intents with throttle := limits }
  | customResponseBodies {t : Tree} {bodies : KeyTable ResponseBody} :
      readBodies.Takes depth t bodies →
      FieldGives depth "customResponseBodies" t fun intents => { intents with bodies := bodies }

/-- What a tree gives as a document. -/
def Gives : Nat → Tree → Intents → Prop :=
  shape.Gives fun field depth => FieldGives depth field.name

theorem FieldGives.of_managedRules {depth : Nat} {t : Tree} {update : Intents → Intents}
    (h : FieldGives depth "managedRules" t update) :
    ∃ managed, Optionally ManagedIntent.Gives depth t managed ∧
      update = fun intents => { intents with managed := managed } := by
  generalize hname : "managedRules" = name at h
  cases h with
  | managedRules h => exact ⟨_, h, rfl⟩
  | _ => exact absurd hname (by decide)

theorem FieldGives.of_throttle {depth : Nat} {t : Tree} {update : Intents → Intents}
    (h : FieldGives depth "throttle" t update) :
    ∃ limits, ThrottleLimits.Gives depth t limits ∧
      update = fun intents => { intents with throttle := limits } := by
  generalize hname : "throttle" = name at h
  cases h with
  | throttle h => exact ⟨_, h, rfl⟩
  | _ => exact absurd hname (by decide)

/-- The managed groups of an accepted document. -/
theorem Gives.managedRules {depth : Nat} {t v : Tree} {intents : Intents}
    (h : Gives (depth + 1) t intents) (hfield : t.HasField shape.fieldNames "managedRules" v) :
    ∃ managed, Optionally ManagedIntent.Gives depth v managed := by
  obtain ⟨field, -, hname, update, hupdate⟩ := Shape.Gives.holds h (by decide) hfield
  obtain ⟨managed, hmanaged, -⟩ := FieldGives.of_managedRules (hname ▸ hupdate)
  exact ⟨managed, hmanaged⟩

/-- The limits of an accepted document. -/
theorem Gives.throttle {depth : Nat} {t v : Tree} {intents : Intents}
    (h : Gives (depth + 1) t intents) (hfield : t.HasField shape.fieldNames "throttle" v) :
    ∃ limits, ThrottleLimits.Gives depth v limits := by
  obtain ⟨field, -, hname, update, hupdate⟩ := Shape.Gives.holds h (by decide) hfield
  obtain ⟨limits, hlimits, -⟩ := FieldGives.of_throttle (hname ▸ hupdate)
  exact ⟨limits, hlimits⟩

theorem read_admits : read.Admits Gives := by
  refine Shape.read_admits ?_
  simp only [shape, List.forall_mem_cons]
  refine ⟨(of_admits Config.read_consistent _ _ _).imp ?_,
    (of_admits (optional_admits ManagedIntent.read_admits) _ _ _).imp ?_,
    (of_admits (optional_consistent (list_consistent string_consistent)) _ _ _).imp ?_,
    (of_admits ThrottleLimits.read_admits _ _ _).imp ?_,
    (of_admits readBodies_consistent _ _ _).imp ?_, List.forall_mem_nil _⟩
  · rintro depth t _ ⟨config, h, rfl⟩
    exact .config h
  · rintro depth t _ ⟨managed, h, rfl⟩
    exact .managedRules h
  · rintro depth t _ ⟨addresses, h, rfl⟩
    exact .ipBlocklist h
  · rintro depth t _ ⟨limits, h, rfl⟩
    exact .throttle h
  · rintro depth t _ ⟨bodies, h, rfl⟩
    exact .customResponseBodies h

theorem FieldGives.takes {field : Json.Field Intents} (hfield : field ∈ shape.fields) {depth : Nat}
    {t : Tree} {update : Intents → Intents} (h : FieldGives depth field.name t update) :
    field.read.Takes depth t update := by
  have hfind := Shape.find?_name (show (shape.fields.map (·.name)).Nodup by decide) hfield
  generalize field.name = name at h hfind
  cases h with
  | config h =>
    obtain rfl := Option.some.inj hfind
    exact h.bind rfl
  | managedRules h =>
    obtain rfl := Option.some.inj hfind
    exact (h.takes fun _ => ManagedIntent.Gives.takes).bind rfl
  | ipBlocklist h =>
    obtain rfl := Option.some.inj hfind
    exact h.bind rfl
  | throttle h =>
    obtain rfl := Option.some.inj hfind
    exact h.takes.bind rfl
  | customResponseBodies h =>
    obtain rfl := Option.some.inj hfind
    exact h.bind rfl

theorem Gives.takes {depth : Nat} {t : Tree} {intents : Intents} (h : Gives depth t intents) :
    read.Takes depth t intents :=
  Shape.Gives.takes h fun _ hfield _ _ _ => FieldGives.takes hfield

end Intents

end WebAcl
