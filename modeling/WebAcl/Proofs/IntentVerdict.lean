import WebAcl.Intents
import WebAcl.Proofs.GeneratedNames
import WebAcl.Proofs.Verdict
import Mathlib.Data.List.Nodup

/-! # The verdict on a document

A document fills each slot of a list at most once (`Intents.ruleAt?`), so the names of its rules are
distinct, and every throttle finds the response body that it names. What remains to go wrong is that
a document asks for no rule, or that a limit is zero; then the first such limit is reported in the
order in which the rules are tried, not in the order in which they were asked for
(`Intents.template_result`). -/

namespace WebAcl

/-! ### One rule for a slot -/

namespace Intents

variable (intents : Intents) (arn : String)

/-- The rule that a document wants in a slot, if its blocklist refers to `arn`. -/
def ruleAt? : Slot → Option Rule
  | .throttle preset =>
    (intents.throttle.limit preset).map fun limit => preset.rule limit intents.config.userHeader
  | .group group =>
    intents.managed.bind fun managed =>
      if managed.selection.includes group then some (group.rule (managed.exclusions.names group))
      else none
  | .blocklist => intents.blocklist.map fun _ => Draft.blocklistRule arn

theorem flatMap_rules_bodies (queue : Queue) :
    (intents.bodies.entries.map fun (key, body) => Operation.responseBody key body).flatMap
      (Operation.rules intents.config arn queue) = [] := by
  rw [List.flatMap_map, List.flatMap_eq_nil_iff]
  exact fun _ _ => rfl

theorem filterMap_ruleAt?_group {managed : ManagedIntent} (h : intents.managed = some managed) :
    (ManagedGroup.all.map Slot.group).filterMap (intents.ruleAt? arn) =
      managed.selection.groups.map fun group => group.rule (managed.exclusions.names group) := by
  rw [List.filterMap_map, ← List.filterMap_eq_map, Selection.groups, List.filterMap_filter]
  refine List.filterMap_congr fun group _ => ?_
  simp [ruleAt?, h]

theorem filterMap_ruleAt?_group_of_none (h : intents.managed = none) :
    (ManagedGroup.all.map Slot.group).filterMap (intents.ruleAt? arn) = [] := by
  rw [List.filterMap_map, List.filterMap_eq_nil_iff]
  intro group _
  simp [ruleAt?, h]

theorem flatMap_rules_managed (queue : Queue) :
    (intents.managed.toList.map fun managed =>
        Operation.managedRules managed.selection managed.exclusions).flatMap
      (Operation.rules intents.config arn queue) =
      if queue = .block then (ManagedGroup.all.map Slot.group).filterMap (intents.ruleAt? arn)
      else [] := by
  cases hmanaged : intents.managed with
  | none =>
    rw [intents.filterMap_ruleAt?_group_of_none arn hmanaged]
    exact (ite_self _).symm
  | some managed =>
    rw [intents.filterMap_ruleAt?_group arn hmanaged]
    exact List.append_nil _

theorem flatMap_rules_blocklist (queue : Queue) :
    (intents.blocklist.toList.map Operation.ipRestriction).flatMap
      (Operation.rules intents.config arn queue) =
      if queue = .block then [Slot.blocklist].filterMap (intents.ruleAt? arn) else [] := by
  cases hblocklist : intents.blocklist with
  | none => simp [ruleAt?, hblocklist]
  | some addresses => simp [ruleAt?, hblocklist, Operation.rules]

theorem flatMap_rules_presets (queue : Queue) :
    (Preset.all.map fun preset =>
        Operation.preset preset (intents.throttle.limit preset)).flatMap
      (Operation.rules intents.config arn queue) =
      ((Preset.ofQueue queue).map Slot.throttle).filterMap (intents.ruleAt? arn) := by
  have hpreset : ∀ preset : Preset,
      Operation.rules intents.config arn queue
          (.preset preset (intents.throttle.limit preset)) =
        if preset.queue = queue then (intents.ruleAt? arn (.throttle preset)).toList else [] := by
    intro preset
    rw [ruleAt?]
    cases intents.throttle.limit preset with
    | none => exact (ite_self _).symm
    | some limit => rfl
  rw [List.flatMap_map, List.filterMap_map, List.filterMap_eq_flatMap_toList]
  simp only [hpreset]
  cases queue <;> simp [Preset.all, Preset.ofQueue]

/-- **The rules of a document**, slot by slot. -/
theorem asked_operations : Operation.asked intents.config arn intents.operations =
    Slot.all.filterMap (intents.ruleAt? arn) := by
  simp only [Operation.asked, operations, List.flatMap_append, flatMap_rules_bodies,
    flatMap_rules_managed, flatMap_rules_blocklist, flatMap_rules_presets, Slot.all,
    List.filterMap_append]
  simp

theorem restrictions_operations :
    Operation.restrictions intents.operations = intents.blocklist.toList := by
  have hbodies : (intents.bodies.entries.map fun (key, body) =>
      Operation.responseBody key body).filterMap Operation.restriction? = [] := by
    rw [List.filterMap_map, List.filterMap_eq_nil_iff]
    exact fun _ _ => rfl
  have hmanaged : (intents.managed.toList.map fun managed =>
      Operation.managedRules managed.selection managed.exclusions).filterMap
        Operation.restriction? = [] := by
    rw [List.filterMap_map, List.filterMap_eq_nil_iff]
    exact fun _ _ => rfl
  have hpresets : (Preset.all.map fun preset =>
      Operation.preset preset (intents.throttle.limit preset)).filterMap
        Operation.restriction? = [] := by
    rw [List.filterMap_map, List.filterMap_eq_nil_iff]
    exact fun _ _ => rfl
  have hblocklist : (intents.blocklist.toList.map Operation.ipRestriction).filterMap
      Operation.restriction? = intents.blocklist.toList := by
    rw [List.filterMap_map]
    exact List.filterMap_some
  rw [Operation.restrictions, operations, List.filterMap_append, List.filterMap_append,
    List.filterMap_append, hbodies, hmanaged, hpresets, hblocklist, List.append_nil]
  rfl

/-! ### Distinct names -/

variable {intents arn}

theorem stem_prefix_name {slot : Slot} {rule : Rule} (h : intents.ruleAt? arn slot = some rule) :
    slot.stem.toList <+: rule.name.toList := by
  cases slot with
  | throttle preset =>
    obtain ⟨limit, -, rfl⟩ := Option.map_eq_some_iff.mp h
    exact Slot.stem_prefix_ruleName preset limit
  | group group =>
    obtain ⟨managed, -, h⟩ := Option.bind_eq_some_iff.mp h
    obtain ⟨-, h⟩ := Option.ite_none_right_eq_some.mp h
    rw [← Option.some.inj h]
    exact List.prefix_refl _
  | blocklist =>
    obtain ⟨addresses, -, rfl⟩ := Option.map_eq_some_iff.mp h
    exact List.prefix_refl _

variable (intents arn)

theorem nodup_names : ((Slot.all.filterMap (intents.ruleAt? arn)).map (·.name)).Nodup := by
  rw [List.map_filterMap]
  refine Slot.nodup_all.filterMap fun first second name hfirst hsecond => ?_
  obtain ⟨rule, hrule, rfl⟩ := Option.map_eq_some_iff.mp hfirst
  obtain ⟨other, hother, hname⟩ := Option.map_eq_some_iff.mp hsecond
  exact Slot.eq_of_stem_prefix (stem_prefix_name hrule) (hname ▸ stem_prefix_name hother)

/-! ### Limits of zero -/

/-- The throttles in the order in which their rules are tried: the counting ones and then the
blocking ones, each in the order of a document. -/
def tried : List Preset := Preset.ofQueue .count ++ Preset.ofQueue .block

/-- The first throttle that has a limit of zero. -/
def firstZero? : Option Preset := tried.find? fun preset => intents.throttle.limit preset = some 0

/-- What is wrong with the rule of a slot. -/
def defectAt? : Slot → Option AclError
  | .throttle preset =>
    if intents.throttle.limit preset = some 0 then some (.invalidRateLimit (preset.ruleName 0) 0)
    else none
  | .group _ => none
  | .blocklist => none

variable {intents} in
theorem preset_mem_operations {named : Preset} {limit : UInt64} :
    .preset named (some limit) ∈ intents.operations ↔
      intents.throttle.limit named = some limit := by
  simp [operations, Preset.mem_all]

/-- The rule of a throttle has a defect only if its limit is zero: its response body is there. -/
theorem defect?_throttle {preset : Preset} {limit : UInt64}
    (h : intents.throttle.limit preset = some limit) :
    intents.draft.defect? (preset.rule limit intents.config.userHeader) =
      if limit = 0 then some (.invalidRateLimit (preset.ruleName limit) 0) else none := by
  by_cases hzero : limit = 0
  · rw [if_pos hzero, Draft.defect?, if_pos (by rw [Preset.limit?_rule, hzero])]
    rfl
  · rw [if_neg hzero, Draft.defect?_eq_none, Preset.limit?_rule]
    refine ⟨fun heq => hzero (Option.some.inj heq), fun key hkey => ?_⟩
    have hregisters : Operation.Registers key (.preset preset (some limit)) :=
      (Preset.responseKey?_rule_eq_some preset limit _).mp hkey
    exact (Draft.contains_new _ _).mpr ⟨_, preset_mem_operations.mpr h, hregisters⟩

theorem bind_defect?_ruleAt? (slot : Slot) :
    (intents.ruleAt? arn slot).bind intents.draft.defect? = intents.defectAt? slot := by
  cases slot with
  | throttle preset =>
    rw [ruleAt?, defectAt?]
    cases hlimit : intents.throttle.limit preset with
    | none => rfl
    | some limit =>
      have hdefect := intents.defect?_throttle hlimit
      by_cases hzero : limit = 0
      · subst hzero
        simpa using hdefect
      · simpa [hzero] using hdefect
  | group group =>
    rw [ruleAt?, defectAt?]
    cases intents.managed with
    | none => rfl
    | some managed =>
      rw [Option.bind_some]
      split
      · rfl
      · rfl
  | blocklist =>
    rw [ruleAt?, defectAt?]
    cases intents.blocklist <;> rfl

theorem findSome?_defectAt?_throttle (presets : List Preset) :
    (presets.map Slot.throttle).findSome? intents.defectAt? =
      (presets.find? fun preset => intents.throttle.limit preset = some 0).map fun preset =>
        .invalidRateLimit (preset.ruleName 0) 0 := by
  induction presets with
  | nil => rfl
  | cons preset presets ih =>
    rw [List.map_cons, List.findSome?_cons, ih, defectAt?, List.find?_cons]
    by_cases h : intents.throttle.limit preset = some 0
    · simp [h]
    · simp [h]

theorem findSome?_defectAt? : Slot.all.findSome? intents.defectAt? =
    intents.firstZero?.map fun preset => .invalidRateLimit (preset.ruleName 0) 0 := by
  have hgroups : (ManagedGroup.all.map Slot.group).findSome? intents.defectAt? = none :=
    List.findSome?_eq_none_iff.mpr fun slot hslot => by
      obtain ⟨group, -, rfl⟩ := List.mem_map.mp hslot
      rfl
  have hblocklist : [Slot.blocklist].findSome? intents.defectAt? = none := rfl
  rw [Slot.all, List.findSome?_append, List.findSome?_append, List.findSome?_append, hgroups,
    hblocklist, findSome?_defectAt?_throttle, findSome?_defectAt?_throttle, firstZero?, tried,
    List.find?_append, Option.or_none, Option.or_none, Option.map_or]

/-! ### Documents that ask for nothing -/

/-- A document that asks for no rule. -/
structure Blank : Prop where
  managed : ∀ managed, intents.managed = some managed → managed.selection = .only []
  blocklist : intents.blocklist = none
  limits : ∀ preset, intents.throttle.limit preset = none

theorem filterMap_ruleAt?_eq_nil :
    Slot.all.filterMap (intents.ruleAt? arn) = [] ↔ intents.Blank := by
  rw [List.filterMap_eq_nil_iff]
  constructor
  · intro h
    have hslot : ∀ slot, intents.ruleAt? arn slot = none := fun slot => h slot (Slot.mem_all slot)
    refine ⟨fun managed hmanaged => ?_, ?_, fun preset => ?_⟩
    · have hnone : ∀ group, managed.selection.includes group = false := by
        intro group
        have hgroup := hslot (.group group)
        simpa [ruleAt?, hmanaged] using hgroup
      cases hselection : managed.selection with
      | all =>
        rw [hselection] at hnone
        cases hnone .common
      | only groups =>
        rw [hselection] at hnone
        have hempty : groups = [] := List.eq_nil_iff_forall_not_mem.mpr fun group hmem => by
          simpa [Selection.includes, hmem] using hnone group
        rw [hempty]
    · simpa [ruleAt?] using hslot .blocklist
    · simpa [ruleAt?] using hslot (.throttle preset)
  · rintro ⟨hmanaged, hblocklist, hlimits⟩ slot -
    cases slot with
    | throttle preset => simp [ruleAt?, hlimits]
    | group group =>
      rw [ruleAt?]
      cases hsome : intents.managed with
      | none => rfl
      | some managed => simp [hmanaged managed hsome, Selection.includes]
    | blocklist => simp [ruleAt?, hblocklist]

/-! ### The verdict -/

theorem config_draft : intents.draft.config = intents.config := Draft.config_new ..

/-- No two rules of a document share a name. -/
theorem nodup_names_draft : (intents.draft.rules.map (·.name)).Nodup := by
  rw [draft, Draft.map_name_rules_new _ _ "", asked_operations]
  exact intents.nodup_names ""

theorem rules_draft_eq_nil : intents.draft.rules = [] ↔ intents.Blank := by
  rw [draft, Draft.rules_eq_nil_iff _ _ "", asked_operations, filterMap_ruleAt?_eq_nil]

/-- What keeps a document from being built: it asks for nothing, or a limit is zero. -/
theorem configurationError?_draft [Decidable intents.Blank] :
    intents.draft.configurationError? =
      if intents.Blank then some (.emptyRuleSet intents.config.name)
      else intents.firstZero?.map fun preset => .invalidRateLimit (preset.ruleName 0) 0 := by
  by_cases hblank : intents.Blank
  · rw [if_pos hblank, Draft.configurationError?_of_nil (intents.rules_draft_eq_nil.mpr hblank),
      config_draft]
  · rw [if_neg hblank]
    have hfirst := Draft.configurationError?_of_nodup
      (fun h => hblank (intents.rules_draft_eq_nil.mp h)) intents.nodup_names_draft
    -- of the rules that were asked for only the slots are left, and of these only the throttles
    rw [draft, Draft.findSome?_defect?_rules "", asked_operations, ← List.head?_filterMap, List.filterMap_filterMap,
      List.head?_filterMap] at hfirst
    rw [← findSome?_defectAt?]
    refine hfirst.trans ?_
    exact congrArg (fun f => Slot.all.findSome? f) (funext (intents.bind_defect?_ruleAt? ""))

/-- Without a configuration error a document is built, over the one IP set that it may ask for. -/
theorem build_draft (h : intents.draft.configurationError? = none) :
    (intents.draft.build Register.create []).result =
        .ok (intents.draft.resolved (Register.reference "BlocklistIpSet")) ∧
      (intents.draft.build Register.create []).state =
        intents.blocklist.toList.map (Draft.blocklistSpec intents.config) := by
  have hbuild := Draft.build_new h Register.create []
  have hres := intents.restrictions_operations
  rw [hres] at hbuild
  rw [draft] at h ⊢
  rw [hbuild]
  cases hblocklist : intents.blocklist with
  | none =>
    rw [hblocklist] at hres
    exact ⟨congrArg Except.ok (Draft.resolved_of_no_restriction hres _).symm, rfl⟩
  | some addresses =>
    refine ⟨?_, ?_⟩
    · simp only [Option.toList_some, Draft.result_supplied_cons]
      rfl
    · simp only [Option.toList_some, Draft.state_supplied_cons, Draft.config_new]
      rfl

theorem template_of_configurationError {error : AclError}
    (h : intents.draft.configurationError? = some error) :
    intents.template.result = .error error := by
  rw [template, Draft.build_of_configurationError h]
  rfl

theorem template_of_no_configurationError (h : intents.draft.configurationError? = none) :
    intents.template.result =
      .ok ⟨intents.blocklist.toList.map (Draft.blocklistSpec intents.config),
        intents.draft.resolved (Register.reference "BlocklistIpSet")⟩ := by
  obtain ⟨hresult, hstate⟩ := intents.build_draft h
  rw [template, hresult, hstate]
  rfl

theorem template_eq_error {error : AclError} : intents.template.result = .error error ↔
    intents.draft.configurationError? = some error := by
  refine ⟨fun h => ?_, intents.template_of_configurationError⟩
  cases herror : intents.draft.configurationError? with
  | none =>
    rw [intents.template_of_no_configurationError herror] at h
    cases h
  | some other =>
    rw [intents.template_of_configurationError herror] at h
    rw [Except.error.inj h]

/-- The limit of a throttle is zero, and of those that are tried before it none is. -/
def FirstZero (preset : Preset) : Prop :=
  ∃ before after, tried = before ++ preset :: after ∧
    intents.throttle.limit preset = some 0 ∧
    ∀ earlier ∈ before, intents.throttle.limit earlier ≠ some 0

theorem firstZero?_eq_some {preset : Preset} :
    intents.firstZero? = some preset ↔ intents.FirstZero preset := by
  simp only [firstZero?, FirstZero, List.find?_eq_some_iff_append, decide_eq_true_eq,
    Bool.not_eq_true', decide_eq_false_iff_not]
  constructor
  · rintro ⟨hzero, before, after, hsplit, hbefore⟩
    exact ⟨before, after, hsplit, hzero, hbefore⟩
  · rintro ⟨before, after, hsplit, hzero, hbefore⟩
    exact ⟨hzero, before, after, hsplit, hbefore⟩

theorem firstZero?_eq_none :
    intents.firstZero? = none ↔ ∀ preset, intents.throttle.limit preset ≠ some 0 := by
  have hmem : ∀ preset : Preset, preset ∈ tried := by
    intro preset
    rw [tried, List.mem_append, Preset.mem_ofQueue, Preset.mem_ofQueue]
    cases preset.queue <;> simp
  simp [firstZero?, List.find?_eq_none, hmem]

theorem exists_firstZero : (∃ preset, intents.FirstZero preset) ↔
    ∃ preset, intents.throttle.limit preset = some 0 := by
  constructor
  · rintro ⟨preset, -, -, -, hzero, -⟩
    exact ⟨preset, hzero⟩
  · rintro ⟨preset, hzero⟩
    cases hfirst : intents.firstZero? with
    | none => exact absurd hzero (intents.firstZero?_eq_none.mp hfirst preset)
    | some first => exact ⟨first, intents.firstZero?_eq_some.mp hfirst⟩

/-- The errors of a document, each with its cause. -/
theorem template_eq_error_iff {error : AclError} : intents.template.result = .error error ↔
    intents.Blank ∧ error = .emptyRuleSet intents.config.name ∨
      ∃ preset, intents.FirstZero preset ∧ error = .invalidRateLimit (preset.ruleName 0) 0 := by
  classical
  rw [template_eq_error, configurationError?_draft]
  split
  · next hblank =>
    have hpositive : ∀ preset, ¬ intents.FirstZero preset := by
      rintro preset ⟨-, -, -, hzero, -⟩
      rw [hblank.limits] at hzero
      cases hzero
    simp [hblank, hpositive, eq_comm]
  · next hblank =>
    simp only [hblank, false_and, false_or, Option.map_eq_some_iff, firstZero?_eq_some]
    exact exists_congr fun preset => and_congr_right fun _ => eq_comm

theorem exists_template_iff : (∃ template, intents.template.result = .ok template) ↔
    ¬ intents.Blank ∧ ∀ preset, intents.throttle.limit preset ≠ some 0 := by
  constructor
  · rintro ⟨built, hbuilt⟩
    have hnone : ∀ error, intents.template.result ≠ .error error := by
      rw [hbuilt]
      exact fun error => nofun
    refine ⟨fun hblank => ?_, fun preset hzero => ?_⟩
    · exact hnone _ (intents.template_eq_error_iff.mpr (Or.inl ⟨hblank, rfl⟩))
    · obtain ⟨first, hfirst⟩ := intents.exists_firstZero.mpr ⟨preset, hzero⟩
      exact hnone _ (intents.template_eq_error_iff.mpr (Or.inr ⟨first, hfirst, rfl⟩))
  · rintro ⟨hblank, hpositive⟩
    cases hresult : intents.template.result with
    | ok template => exact ⟨template, rfl⟩
    | error error =>
      rcases intents.template_eq_error_iff.mp hresult with ⟨h, -⟩ | ⟨preset, hfirst, -⟩
      · exact absurd h hblank
      · obtain ⟨zero, hzero⟩ := intents.exists_firstZero.mp ⟨preset, hfirst⟩
        exact absurd hzero (hpositive zero)

/-- **The verdict on a document.** Its names never collide, its throttles find their response bodies
and its IP set is always created, so it fails only if it asks for no rule or if a limit is zero; the
rule that is named then is the first in the order in which the rules are tried. -/
theorem template_result :
    (∀ error, intents.template.result = .error error →
      (∃ acl, error = .emptyRuleSet acl) ∨ ∃ rule limit, error = .invalidRateLimit rule limit) ∧
    (∀ acl, intents.template.result = .error (.emptyRuleSet acl) ↔
      intents.Blank ∧ acl = intents.config.name) ∧
    ((∃ rule limit, intents.template.result = .error (.invalidRateLimit rule limit)) ↔
      ∃ preset, intents.throttle.limit preset = some 0) ∧
    (∀ rule limit, intents.template.result = .error (.invalidRateLimit rule limit) ↔
      ∃ preset, intents.FirstZero preset ∧ rule = preset.ruleName 0 ∧ limit = 0) ∧
    ((∃ template, intents.template.result = .ok template) ↔
      ¬ intents.Blank ∧ ∀ preset, intents.throttle.limit preset ≠ some 0) := by
  have hempty : ∀ acl, intents.template.result = .error (.emptyRuleSet acl) ↔
      intents.Blank ∧ acl = intents.config.name := by
    intro acl
    rw [template_eq_error_iff]
    simp
  have hinvalid : ∀ rule limit,
      intents.template.result = .error (.invalidRateLimit rule limit) ↔
        ∃ preset, intents.FirstZero preset ∧ rule = preset.ruleName 0 ∧ limit = 0 := by
    intro rule limit
    rw [template_eq_error_iff]
    simp
  refine ⟨fun error herror => ?_, hempty, ?_, hinvalid, intents.exists_template_iff⟩
  · rcases intents.template_eq_error_iff.mp herror with ⟨-, rfl⟩ | ⟨preset, -, rfl⟩
    · exact Or.inl ⟨_, rfl⟩
    · exact Or.inr ⟨_, _, rfl⟩
  · simp only [hinvalid]
    rw [← exists_firstZero]
    constructor
    · rintro ⟨rule, limit, preset, hfirst, -⟩
      exact ⟨preset, hfirst⟩
    · rintro ⟨preset, hfirst⟩
      exact ⟨_, _, preset, hfirst, rfl, rfl⟩

/-- A blocking throttle is asked for before a counting one, but of two zeros that of the counting
throttle is reported. -/
example : { Intents.default with
    throttle := (ThrottleLimits.none.insert ⟨.block, .required, .ip⟩ (some 0)).insert
      ⟨.count, .absent, .ipAndUriPath⟩ (some 0) }.template.result =
    .error (.invalidRateLimit "CountRuleIPQueryWithAnonymousUser0" 0) := rfl

end Intents

end WebAcl
