import WebAcl.Proofs.DirectTemplate
import WebAcl.Proofs.Renderings

/-! # How limits are shown

The limit of a throttle is rendered several times: as the rate of its rule, at the end of the name of
a rule that counts, at the end of the key of the response body of a rule that blocks, and within the
text of this body. These are written in different ways, but they all say the same number.

* `Intents.Shows`: the places where a rendered template says a limit.
* `Intents.shows_of_template`: each limit of a document is said there. -/

namespace WebAcl

open Json

/-! ### Looking into values -/

namespace Json.Value

/-- What stands under a key of an object. -/
def member? (key : String) : Value → Option Value
  | .object members => members.lookup key
  | _ => none

/-- What stands at the end of a path of keys. -/
def at? (path : List String) (v : Value) : Option Value := path.foldlM (fun v key => v.member? key) v

/-- An object whose name begins with these words. -/
def isNamed (stem : String) (v : Value) : Bool :=
  match v.member? "name" with
  | some (.text name) => stem.toList.isPrefixOf name.toList
  | _ => false

end Json.Value

theorem lookup_map {α β : Type} (f : α → β) (entries : List (String × α)) (key : String) :
    (entries.map fun (key, a) => (key, f a)).lookup key = (entries.lookup key).map f := by
  induction entries with
  | nil => rfl
  | cons entry entries ih =>
    rw [List.map_cons, List.lookup_cons, List.lookup_cons, ih]
    cases key == entry.1 <;> rfl

theorem Document.member?_object (members : List (String × Document)) (key : String) :
    (Document.object members).value.member? key = (members.lookup key).map Document.value := by
  rw [value, memberValues_eq_map]
  exact lookup_map value members key

/-! ### Throttles in a template -/

/-- The rule of a throttle at some place. -/
abbrev Preset.ranked (preset : Preset) (limit : UInt64) (header : String) (priority : UInt32) :
    RankedRule :=
  ⟨priority, preset.rule limit header⟩

namespace Intents

variable {intents : Intents} {template : Template}

theorem acl_of_template (built : intents.template.result = .ok template) :
    template.acl = intents.direct.acl := by
  cases herror : intents.draft.configurationError? with
  | some error =>
    rw [intents.template_of_configurationError herror] at built
    cases built
  | none =>
    rw [intents.template_of_no_configurationError herror, resolved_draft] at built
    exact (congrArg (·.acl) (Except.ok.inj built)).symm

theorem map_rule_direct : intents.direct.acl.rules.map (·.rule) =
    Slot.all.filterMap (intents.ruleAt? (Register.reference "BlocklistIpSet")) := by
  rw [← rules_eq, ← RankedRule.map_rule_rank (_ ++ _), RankedRule.rank_eq_mapIdx]
  rfl

/-- The rules of a document are those of its slots. -/
theorem mem_rules_direct {rule : Rule} : rule ∈ intents.direct.acl.rules.map (·.rule) ↔
    ∃ slot, intents.ruleAt? (Register.reference "BlocklistIpSet") slot = some rule := by
  rw [map_rule_direct, List.mem_filterMap]
  exact exists_congr fun slot => and_iff_right (Slot.mem_all slot)

theorem nodup_names_direct :
    (intents.direct.acl.rules.map fun ranked => ranked.rule.name).Nodup := by
  have hslots := intents.nodup_names (Register.reference "BlocklistIpSet")
  rwa [← map_rule_direct, List.map_map] at hslots

section Limit

variable {preset : Preset} {limit : UInt64} (h : intents.throttle.limit preset = some limit)

include h

theorem ruleAt?_throttle (arn : String) : intents.ruleAt? arn (.throttle preset) =
    some (preset.rule limit intents.config.userHeader) := by
  rw [ruleAt?, h]
  rfl

/-- A rule whose name begins with the words of a throttle is the rule of the throttle. -/
theorem rule_of_stem {ranked : RankedRule} (hmem : ranked ∈ intents.direct.acl.rules)
    (hstem : preset.stem.toList <+: ranked.rule.name.toList) :
    ranked.rule = preset.rule limit intents.config.userHeader := by
  obtain ⟨slot, hslot⟩ := mem_rules_direct.mp (List.mem_map_of_mem hmem)
  obtain rfl : slot = .throttle preset :=
    Slot.eq_of_stem_prefix (stem_prefix_name hslot) hstem
  exact Option.some.inj (hslot.symm.trans (ruleAt?_throttle h _))

/-- A throttle has one rule, told by the words in front of its name. -/
theorem filter_rules_direct : ∃ priority, intents.direct.acl.rules.filter
      (fun ranked => preset.stem.toList.isPrefixOf ranked.rule.name.toList) =
    [preset.ranked limit intents.config.userHeader priority] := by
  obtain ⟨⟨priority, _⟩, hranked, rfl⟩ :=
    List.mem_map.mp (mem_rules_direct.mpr ⟨_, ruleAt?_throttle h _⟩)
  have hown : ∀ ranked ∈ intents.direct.acl.rules,
      preset.stem.toList.isPrefixOf ranked.rule.name.toList =
        decide (ranked = preset.ranked limit intents.config.userHeader priority) := by
    intro ranked hmem
    rw [Bool.eq_iff_iff, List.isPrefixOf_iff_prefix, decide_eq_true_eq]
    constructor
    · intro hstem
      refine List.inj_on_of_nodup_map nodup_names_direct hmem hranked ?_
      rw [rule_of_stem h hmem hstem]
    · rintro rfl
      exact Slot.stem_prefix_ruleName preset limit
  refine ⟨priority, ?_⟩
  rw [List.filter_congr hown, List.filter_eq,
    List.count_eq_one_of_mem nodup_names_direct.of_map hranked]
  rfl

/-- The text of a limit stands under its key unless the document has a body for it. -/
theorem get?_bodies_direct (hblock : preset.queue = .block)
    (hkey : intents.bodies.get? (preset.bodyKey limit) = none) :
    intents.direct.acl.bodies.get? (preset.bodyKey limit) =
      some (.text (Throttle.explanation limit)) := by
  have hderived : Operation.firstDerived? (preset.bodyKey limit) intents.operations =
      some (.text (Throttle.explanation limit)) :=
    Operation.firstDerived?_eq_some.mpr
      ⟨preset, limit, preset_mem_operations.mpr h, hblock, rfl, rfl⟩
  rw [direct, get?_bodyTable, hkey, hderived, Option.none_or]

end Limit

/-! ### Limits in a rendering -/

/-- The rule of a throttle says its limit: it is the rate, and if the rule counts, the end of its
name, else the end of the key of its response body. -/
structure RuleShows (preset : Preset) (limit : UInt64) (rule : Value) : Prop where
  rate : rule.at? ["statement", "rateBasedStatement", "limit"] = some (.number (.natural limit))
  name : preset.queue = .count →
    rule.at? ["name"] = some (.text (preset.stem ++ Text.decimal limit.toNat))
  bodyKey : preset.queue = .block →
    rule.at? ["action", "block", "customResponse", "customResponseBodyKey"] =
      some (.text (preset.bodyStem ++ Text.decimal limit.toNat))

variable (intents) in
/-- Where a rendered template says the limit of a throttle. -/
structure Shows (preset : Preset) (limit : UInt64) (v : Value) : Prop where
  /-- The throttle has one rule. -/
  rule : ∃ rules rule, v.at? ["webAcl", "rules"] = some (.list rules) ∧
    rules.filter (Value.isNamed preset.stem) = [rule] ∧ RuleShows preset limit rule
  /-- The response body says the limit, unless the document has a body of its own for the key. -/
  body : preset.queue = .block →
    intents.bodies.get? (preset.bodyStem ++ Text.decimal limit.toNat) = none →
    v.at? ["webAcl", "customResponseBodies", preset.bodyStem ++ Text.decimal limit.toNat,
        "content"] =
      some (.text ("Request rate is limited to " ++ Text.decimal limit.toNat ++
        " requests in a 5 minute window."))

theorem ruleShows_ranked (preset : Preset) (limit : UInt64) (header : String) (priority : UInt32) :
    RuleShows preset limit (preset.ranked limit header priority).document.value where
  rate := by
    obtain ⟨queue, condition, key⟩ := preset
    cases queue <;> cases key <;> rfl
  name h := by
    obtain ⟨queue, condition, key⟩ := preset
    cases h
    rfl
  bodyKey h := by
    obtain ⟨queue, condition, key⟩ := preset
    cases h
    rfl

theorem at?_rules (template : Template) : template.document.value.at? ["webAcl", "rules"] =
    some (.list (template.acl.rules.map (·.document.value))) := by
  have hrules : template.document.value.at? ["webAcl", "rules"] =
      some (Document.list (template.acl.rules.map (·.document))).value := rfl
  rw [hrules, Document.value, Document.itemValues_eq_map, List.map_map]
  rfl

theorem at?_content (template : Template) (key : String) :
    template.document.value.at? ["webAcl", "customResponseBodies", key, "content"] =
      (template.acl.bodies.get? key).map fun body => .text body.content := by
  have hbody : template.document.value.at? ["webAcl", "customResponseBodies", key, "content"] =
      ((bodiesDocument template.acl.bodies).value.member? key).bind (Value.at? ["content"]) := rfl
  rw [hbody, bodiesDocument, Document.member?_object, lookup_map, KeyTable.get?]
  cases template.acl.bodies.entries.lookup key <;> rfl

/-- **A limit is shown as it is**, wherever a rendered template says it. -/
theorem shows_of_template {preset : Preset} {limit : UInt64}
    (h : intents.throttle.limit preset = some limit)
    (built : intents.template.result = .ok template) (lines : Bool) :
    ∃ v, (∀ w, Decodes (template.toJson lines).toList w ↔ w = v) ∧
      intents.Shows preset limit v := by
  have hacl := acl_of_template built
  refine ⟨template.document.value, fun _ => template.document.decodes_toJson lines, ?_, ?_⟩
  · obtain ⟨priority, hfilter⟩ := filter_rules_direct h
    refine ⟨_, _, at?_rules template, ?_,
      ruleShows_ranked preset limit intents.config.userHeader priority⟩
    rw [← hacl] at hfilter
    rw [List.filter_map]
    exact congrArg (List.map fun ranked => ranked.document.value) hfilter
  · intro hblock hkey
    rw [at?_content, hacl]
    have hbody := get?_bodies_direct h hblock hkey
    rw [Preset.bodyKey] at hbody
    rw [hbody, Throttle.explanation_eq]
    rfl

end Intents

end WebAcl
