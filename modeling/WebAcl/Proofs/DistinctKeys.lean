import WebAcl.Proofs.Json.Rendering
import WebAcl.Template

/-! # No key twice

A format may give an object the same key several times, and what that means is left to whoever reads
it. No layout of a template makes use of that: the keys of a record are fixed and distinct, the
verdict of a rule stands under a key of its own, and a table has every key once.

* `Value.KeysDistinct`: no object within a value has a key twice.
* `Template.distinct`: nor within the value of a template. -/

namespace WebAcl

open Json

/-! ### Values and documents -/

/-- No object within a value has a key twice. -/
inductive Json.Value.KeysDistinct : Value → Prop
  | null : KeysDistinct .null
  | boolean {b : Bool} : KeysDistinct (.boolean b)
  | number {n : Number} : KeysDistinct (.number n)
  | text {s : String} : KeysDistinct (.text s)
  | list {items : List Value} : (∀ item ∈ items, KeysDistinct item) → KeysDistinct (.list items)
  | object {members : List (String × Value)} : (members.map (·.1)).Nodup →
      (∀ m ∈ members, KeysDistinct m.2) → KeysDistinct (.object members)

namespace Document

/-- The value of the document has no key twice. -/
abbrev HasDistinctKeys (document : Document) : Prop := document.value.KeysDistinct

@[simp] theorem distinct_bool (b : Bool) : (Document.bool b).HasDistinctKeys := .boolean

@[simp] theorem distinct_number (n : UInt64) : (Document.number n).HasDistinctKeys := .number

@[simp] theorem distinct_text (s : String) : (Document.text s).HasDistinctKeys := .text

@[simp] theorem distinct_list {items : List Document} :
    (Document.list items).HasDistinctKeys ↔ ∀ item ∈ items, item.HasDistinctKeys := by
  rw [HasDistinctKeys, value, itemValues_eq_map]
  constructor
  · rintro (_ | _ | _ | _ | h)
    exact fun item hitem => h _ (List.mem_map_of_mem hitem)
  · intro h
    refine .list fun v hv => ?_
    obtain ⟨item, hitem, rfl⟩ := List.mem_map.mp hv
    exact h item hitem

@[simp] theorem distinct_object {members : List (String × Document)} :
    (Document.object members).HasDistinctKeys ↔
      (members.map (·.1)).Nodup ∧ ∀ m ∈ members, m.2.HasDistinctKeys := by
  rw [HasDistinctKeys, value, memberValues_eq_map]
  constructor
  · rintro (_ | _ | _ | _ | _ | ⟨hkeys, h⟩)
    rw [List.map_map] at hkeys
    exact ⟨hkeys, fun m hm => h _ (List.mem_map_of_mem hm)⟩
  · rintro ⟨hkeys, h⟩
    refine .object (by rwa [List.map_map]) fun m hm => ?_
    obtain ⟨m', hm', rfl⟩ := List.mem_map.mp hm
    exact h m' hm'

@[simp] theorem distinct_single {key : String} {document : Document} :
    (single key document).HasDistinctKeys ↔ document.HasDistinctKeys := by
  simp [single]

@[simp] theorem distinct_texts (names : List String) : (texts names).HasDistinctKeys := by
  simp [texts]

end Document

/-! ### Layouts -/

@[simp] theorem Visibility.distinct (visibility : Visibility) :
    visibility.document.HasDistinctKeys := by
  simp [Visibility.document]

@[simp] theorem ResponseBody.distinct (body : ResponseBody) : body.document.HasDistinctKeys := by
  simp [ResponseBody.document]

/-- The order of a table leaves no room for a key twice. -/
@[simp] theorem bodiesDocument_distinct (bodies : KeyTable ResponseBody) :
    (bodiesDocument bodies).HasDistinctKeys := by
  rw [bodiesDocument, Document.distinct_object, List.map_map]
  refine ⟨List.pairwise_map.mpr (bodies.ordered.imp fun {first second} hlt heq => ?_), ?_⟩
  · have hkey : first.1 = second.1 := heq
    exact String.lt_irrefl _ (hkey ▸ hlt)
  · intro m hm
    obtain ⟨⟨key, body⟩, -, rfl⟩ := List.mem_map.mp hm
    exact body.distinct

@[simp] theorem IpSetSpec.distinct (spec : IpSetSpec) : spec.document.HasDistinctKeys := by
  simp [IpSetSpec.document]

@[simp] theorem TransformationStep.distinct (step : TransformationStep) :
    step.document.HasDistinctKeys := by
  simp [TransformationStep.document]

@[simp] theorem transformationsDocument_distinct (steps : List TransformationStep) :
    (transformationsDocument steps).HasDistinctKeys := by
  simp [transformationsDocument]

@[simp] theorem GroupReference.distinct (group : GroupReference) :
    group.document.HasDistinctKeys := by
  simp [GroupReference.document]

@[simp] theorem SizeBound.distinct (bound : SizeBound) : bound.document.HasDistinctKeys := by
  simp [SizeBound.document]

@[simp] theorem CustomKey.distinct (key : CustomKey) : key.document.HasDistinctKeys := by
  cases key <;> simp [CustomKey.document]

@[simp] theorem Statement.distinct (statement : Statement) :
    statement.document.HasDistinctKeys := by
  induction statement with
  | managedGroup group => simp [Statement.document]
  | ipSet arn => simp [Statement.document]
  | sizeBound bound => simp [Statement.document]
  | not statement ih => simp [Statement.document, ih]
  | rateBased rate scopeDown ih =>
    obtain ⟨aggregation, keys, limit, window⟩ := rate
    cases keys <;> simp [Statement.document, Rate.members, ih]

@[simp] theorem CustomResponse.distinct (response : CustomResponse) :
    response.document.HasDistinctKeys := by
  simp [CustomResponse.document]

theorem Verdict.distinct (verdict : Verdict) : verdict.member.2.HasDistinctKeys := by
  rcases verdict with _ | (_ | response) | _ | _ <;> simp [Verdict.member]

/-- The verdict stands under one of two keys, which no other member has. -/
theorem Verdict.key_cases (verdict : Verdict) :
    verdict.member.1 = "action" ∨ verdict.member.1 = "overrideAction" := by
  rcases verdict with _ | (_ | response) | _ | _ <;> simp [Verdict.member]

@[simp] theorem RankedRule.distinct (ranked : RankedRule) : ranked.document.HasDistinctKeys := by
  rcases ranked.rule.verdict.key_cases with h | h <;>
    simp [RankedRule.document, Rule.members, h, Verdict.distinct]

@[simp] theorem Acl.distinct (acl : Acl) : acl.document.HasDistinctKeys := by
  simp [Acl.document]

theorem Template.distinct (template : Template) : template.document.HasDistinctKeys := by
  simp [Template.document]

end WebAcl
