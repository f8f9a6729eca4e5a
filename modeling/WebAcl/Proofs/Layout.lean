import WebAcl.Proofs.BodyTable
import WebAcl.Template

/-! # Layouts tell everything

No two templates are laid out as the same document: every part can be read off its members, words
differ where what they stand for differs, and a member that is left out is missed in its place.

* `Template.document_inj`: templates with the same layout are equal. -/

namespace WebAcl

/-! ### Words -/

@[simp] theorem Scope.label_inj {first second : Scope} :
    first.label = second.label ↔ first = second := by
  cases first <;> cases second <;> simp [Scope.label]

@[simp] theorem AddressVersion.label_inj {first second : AddressVersion} :
    first.label = second.label ↔ first = second := by
  cases first <;> cases second <;> simp [AddressVersion.label]

@[simp] theorem ContentType.label_inj {first second : ContentType} :
    first.label = second.label ↔ first = second := by
  cases first <;> cases second <;> simp [ContentType.label]

@[simp] theorem Comparison.label_inj {first second : Comparison} :
    first.label = second.label ↔ first = second := by
  cases first <;> cases second <;> simp [Comparison.label]

@[simp] theorem Transformation.label_inj {first second : Transformation} :
    first.label = second.label ↔ first = second := by
  cases first <;> cases second <;> simp [Transformation.label]

@[simp] theorem Aggregation.label_inj {first second : Aggregation} :
    first.label = second.label ↔ first = second := by
  cases first <;> cases second <;> simp [Aggregation.label]

/-! ### Lists -/

@[simp] theorem Document.single_inj {key key' : String} {document document' : Document} :
    single key document = single key' document' ↔ key = key' ∧ document = document' := by
  simp [single]

/-- Lists are laid out the same if their items are told apart. -/
theorem Document.list_map_inj {α : Type} {layout : α → Document}
    (h : ∀ a b, layout a = layout b ↔ a = b) {as bs : List α} :
    Document.list (as.map layout) = .list (bs.map layout) ↔ as = bs := by
  rw [Document.list.injEq, List.map_inj_right fun a b => (h a b).mp]

@[simp] theorem Document.texts_inj {names names' : List String} :
    texts names = texts names' ↔ names = names' :=
  list_map_inj fun _ _ => by simp

/-! ### Parts -/

@[simp] theorem Visibility.document_inj {first second : Visibility} :
    first.document = second.document ↔ first = second := by
  cases first; cases second; simp [Visibility.document]

@[simp] theorem ResponseBody.document_inj {first second : ResponseBody} :
    first.document = second.document ↔ first = second := by
  cases first; cases second; simp [ResponseBody.document]

@[simp] theorem bodiesDocument_inj {first second : KeyTable ResponseBody} :
    bodiesDocument first = bodiesDocument second ↔ first = second := by
  rw [bodiesDocument, bodiesDocument, Document.object.injEq, List.map_inj_right ?_,
    KeyTable.ext_iff]
  rintro ⟨key, body⟩ ⟨key', body'⟩ h
  simpa using h

@[simp] theorem IpSetSpec.document_inj {first second : IpSetSpec} :
    first.document = second.document ↔ first = second := by
  cases first; cases second; simp [IpSetSpec.document]

@[simp] theorem TransformationStep.document_inj {first second : TransformationStep} :
    first.document = second.document ↔ first = second := by
  cases first; cases second; simp [TransformationStep.document, UInt32.toUInt64_inj]

@[simp] theorem transformationsDocument_inj {first second : List TransformationStep} :
    transformationsDocument first = transformationsDocument second ↔ first = second :=
  Document.list_map_inj fun _ _ => TransformationStep.document_inj

@[simp] theorem GroupReference.document_inj {first second : GroupReference} :
    first.document = second.document ↔ first = second := by
  have hexcluded : ∀ names names' : List String,
      Document.list (names.map fun name => .single "name" (.text name)) =
        .list (names'.map fun name => .single "name" (.text name)) ↔ names = names' :=
    fun _ _ => Document.list_map_inj fun _ _ => by simp
  cases first; cases second; simp [GroupReference.document, hexcluded]

@[simp] theorem SizeBound.document_inj {first second : SizeBound} :
    first.document = second.document ↔ first = second := by
  cases first; cases second; simp [SizeBound.document]

@[simp] theorem CustomKey.document_inj {first second : CustomKey} :
    first.document = second.document ↔ first = second := by
  cases first <;> cases second <;> simp [CustomKey.document]

/-- The custom keys are told from a limit in their place, so none and an empty list differ. -/
@[simp] theorem Rate.members_inj {first second : Rate} :
    first.members = second.members ↔ first = second := by
  have hkeys : ∀ keys keys' : List CustomKey,
      Document.list (keys.map (·.document)) = .list (keys'.map (·.document)) ↔ keys = keys' :=
    fun _ _ => Document.list_map_inj fun _ _ => CustomKey.document_inj
  obtain ⟨aggregation, keys, limit, window⟩ := first
  obtain ⟨aggregation', keys', limit', window'⟩ := second
  cases keys <;> cases keys' <;> simp [Rate.members, hkeys, UInt32.toUInt64_inj]

@[simp] theorem Statement.document_inj {first second : Statement} :
    first.document = second.document ↔ first = second := by
  induction first generalizing second with
  | managedGroup group => cases second <;> simp [Statement.document]
  | ipSet arn => cases second <;> simp [Statement.document]
  | sizeBound bound => cases second <;> simp [Statement.document]
  | not statement ih => cases second <;> simp [Statement.document, ih]
  | rateBased rate scopeDown ih => cases second <;> simp [Statement.document, ih]

@[simp] theorem CustomResponse.document_inj {first second : CustomResponse} :
    first.document = second.document ↔ first = second := by
  cases first; cases second; simp [CustomResponse.document, UInt16.toUInt64_inj]

/-- An action is told from an override by its key, and a block with a response by what it holds. -/
@[simp] theorem Verdict.member_inj {first second : Verdict} :
    first.member = second.member ↔ first = second := by
  rcases first with _ | (_ | response) | _ | _ <;>
    rcases second with _ | (_ | response') | _ | _ <;>
    simp [Verdict.member, Document.single]

theorem Rule.members_inj {first second : Rule} :
    first.members = second.members ↔ first = second := by
  cases first; cases second; simp [Rule.members]

@[simp] theorem RankedRule.document_inj {first second : RankedRule} :
    first.document = second.document ↔ first = second := by
  cases first; cases second; simp [RankedRule.document, Rule.members_inj, UInt32.toUInt64_inj]

@[simp] theorem Acl.document_inj {first second : Acl} :
    first.document = second.document ↔ first = second := by
  have hrules : ∀ rules rules' : List RankedRule,
      Document.list (rules.map (·.document)) = .list (rules'.map (·.document)) ↔ rules = rules' :=
    fun _ _ => Document.list_map_inj fun _ _ => RankedRule.document_inj
  cases first; cases second; simp [Acl.document, hrules]

/-- **Templates with the same layout are equal.** -/
theorem Template.document_inj {first second : Template} :
    first.document = second.document ↔ first = second := by
  have hsets : ∀ sets sets' : List IpSetSpec,
      Document.list (sets.map (·.document)) = .list (sets'.map (·.document)) ↔ sets = sets' :=
    fun _ _ => Document.list_map_inj fun _ _ => IpSetSpec.document_inj
  cases first; cases second; simp [Template.document, hsets]

end WebAcl
