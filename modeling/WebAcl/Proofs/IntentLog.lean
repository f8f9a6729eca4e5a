import WebAcl.Proofs.IntentVerdict
import WebAcl.Proofs.NameWarnings

/-! # The log of a document

What a log shows while a document is made into a template can be read off the document and the result
(`Intents.log`): a line for each limit that is missing, in the order of a document; then, unless there
is no rule, the names of the list and of its metric if they are outside their languages; and only if
the template comes about, the IP set and the completion with its counts. No line is about a response
body, since the declared bodies have different keys and the throttles come later, and none is about a
rule, since all names of rules are generated. -/

namespace WebAcl

/-- A line of a log. -/
structure Line where
  level : Level
  message : String
  details : List (String × Detail)

/-- The line of an event. -/
def Event.line (event : Event) : Line := ⟨event.level, event.message, event.details⟩

/-! ### Operations that log nothing -/

namespace Draft

variable (draft : Draft)

/-- Bodies that are registered under different and new keys replace nothing. -/
theorem trace_registrations {entries : List (String × ResponseBody)}
    (ordered : entries.Pairwise (·.1 < ·.1))
    (fresh : ∀ entry ∈ entries, ¬ draft.bodies.contains entry.1) :
    draft.trace (entries.map fun (key, body) => .responseBody key body) = [] := by
  induction entries generalizing draft with
  | nil => rfl
  | cons entry entries ih =>
    obtain ⟨hhead, htail⟩ := List.pairwise_cons.mp ordered
    obtain ⟨hfresh, hothers⟩ := List.forall_mem_cons.mp fresh
    have hwarnings : draft.warnings (.responseBody entry.1 entry.2) = [] := if_neg hfresh
    rw [List.map_cons, trace, hwarnings]
    refine ih _ htail fun other hother hcontains => ?_
    rcases (KeyTable.contains_insert ..).mp hcontains with hold | heq
    · exact hothers other hother hold
    · exact String.lt_irrefl _ (heq ▸ hhead other hother)

theorem trace_eq_nil {operations : List Operation}
    (h : ∀ operation ∈ operations, ∀ draft : Draft, draft.warnings operation = []) :
    draft.trace operations = [] := by
  induction operations generalizing draft with
  | nil => rfl
  | cons operation operations ih =>
    obtain ⟨hhead, htail⟩ := List.forall_mem_cons.mp h
    rw [trace, hhead, ih _ htail]
    rfl

/-- Of named throttles those without a limit are logged, in turn. -/
theorem trace_presets (presets : List Preset) (limit : Preset → Option UInt64) :
    draft.trace (presets.map fun preset => .preset preset (limit preset)) =
      (presets.filter fun preset => (limit preset).isNone).map fun preset =>
        .limitMissing preset draft.config.name := by
  induction presets generalizing draft with
  | nil => rfl
  | cons preset presets ih =>
    rw [List.map_cons, trace, ih, config_apply]
    cases hlimit : limit preset with
    | none =>
      rw [List.filter_cons_of_pos (by rw [hlimit]; rfl), List.map_cons]
      rfl
    | some n =>
      rw [List.filter_cons_of_neg (by rw [hlimit]; exact Bool.false_ne_true)]
      rfl

end Draft

namespace Intents

variable (intents : Intents)

/-! ### The log, read off a document -/

/-- The limits in the order of a document, each with the method that asks for its throttle. -/
def limitTable : List (Preset × String) := [
  (⟨.block, .required, .ip⟩, "with_throttle_digitraffic_user_ip"),
  (⟨.block, .required, .ipAndUriPath⟩, "with_throttle_digitraffic_user_ip_and_uri_path"),
  (⟨.block, .absent, .ip⟩, "with_throttle_anonymous_user_ip"),
  (⟨.block, .absent, .ipAndUriPath⟩, "with_throttle_anonymous_user_ip_and_uri_path"),
  (⟨.count, .required, .ip⟩, "with_count_digitraffic_user_ip"),
  (⟨.count, .required, .ipAndUriPath⟩, "with_count_digitraffic_user_ip_and_uri_path"),
  (⟨.count, .absent, .ip⟩, "with_count_anonymous_user_ip"),
  (⟨.count, .absent, .ipAndUriPath⟩, "with_count_anonymous_user_ip_and_uri_path")]

/-- A line for each limit that is missing. -/
def missingLines : List Line :=
  (limitTable.filter fun (preset, _) => (intents.throttle.limit preset).isNone).map fun (_, method) =>
    ⟨.warning, "未设置 limit，跳过该限流规则",
      [("method", .text ("acl_builder." ++ method)), ("acl", .text intents.config.name)]⟩

/-- A line about a name of the list. -/
def nameLine (kind value : String) : Line :=
  ⟨.warning, "名称不符合 WAF 字符约束，部署时可能被拒绝",
    [("method", .text "acl_finalizer.finalize"), ("acl", .text intents.config.name),
      ("kind", .text kind), ("value", .text value)]⟩

/-- The lines about the names of the list and of its metric. -/
def nameLines : List Line :=
  (if Name.RuleName intents.config.name then [] else [intents.nameLine "acl" intents.config.name]) ++
    if Name.MetricName intents.config.visibility.metricName then []
    else [intents.nameLine "metric" intents.config.visibility.metricName]

/-- How many limits of counting throttles are set. -/
def countLimits : Nat :=
  limitTable.countP fun (preset, _) => preset.queue = .count ∧ (intents.throttle.limit preset).isSome

/-- The lines of a template that comes about: its IP set, if there is a blocklist, and its counts. -/
def builtLines (template : Template) : List Line :=
  (intents.blocklist.toList.map fun addresses =>
    ⟨.debug, "登记 IP 集合",
      [("logical_id", .text "BlocklistIpSet"), ("addresses", .count addresses.length)]⟩) ++
    [⟨.debug, "Web ACL 构建完成",
      [("acl", .text intents.config.name), ("count_rules", .count intents.countLimits),
        ("block_rules", .count (template.acl.rules.length - intents.countLimits)),
        ("response_bodies", .count template.acl.bodies.size)]⟩]

/-- The lines behind those about limits, up to where the document fails. -/
def buildLines : List Line :=
  match intents.template.result with
  | .error (.emptyRuleSet _) => []
  | .error _ => intents.nameLines
  | .ok template => intents.nameLines ++ intents.builtLines template

/-- **The log of a document.** -/
def log : List Line := intents.missingLines ++ intents.buildLines

/-! ### Missing limits -/

theorem trace_eq : intents.trace =
    (Preset.all.filter fun preset => (intents.throttle.limit preset).isNone).map fun preset =>
      .limitMissing preset intents.config.name := by
  have hbodies : (Draft.new intents.config).trace
      (intents.bodies.entries.map fun (key, body) => .responseBody key body) = [] :=
    Draft.trace_registrations _ intents.bodies.ordered fun _ _ => nofun
  have hsilent : ∀ draft : Draft, draft.trace (intents.managed.toList.map fun managed =>
      .managedRules managed.selection managed.exclusions) = [] := fun draft =>
    draft.trace_eq_nil <| List.forall_mem_map.mpr fun _ _ _ => rfl
  have hblocklist : ∀ draft : Draft,
      draft.trace (intents.blocklist.toList.map .ipRestriction) = [] := fun draft =>
    draft.trace_eq_nil <| List.forall_mem_map.mpr fun _ _ _ => rfl
  rw [trace, operations, Draft.trace_append, Draft.trace_append, Draft.trace_append, hbodies, hsilent,
    hblocklist, Draft.trace_presets, Draft.config_run]
  rfl

theorem lines_trace : intents.trace.map Event.line = intents.missingLines := by
  have htable : limitTable = Preset.all.map fun preset => (preset, preset.method) := rfl
  rw [trace_eq, missingLines, htable, List.filter_map, List.map_map, List.map_map]
  rfl

/-! ### Names -/

variable {intents} in
/-- Every name of a rule is generated. -/
theorem ruleName_of_ruleAt? {arn : String} {slot : Slot} {rule : Rule}
    (h : intents.ruleAt? arn slot = some rule) : Name.RuleName rule.name := by
  cases slot with
  | throttle preset =>
    obtain ⟨limit, -, rfl⟩ := Option.map_eq_some_iff.mp h
    exact preset.ruleName_fits limit
  | group group =>
    obtain ⟨managed, -, h⟩ := Option.bind_eq_some_iff.mp h
    obtain ⟨-, h⟩ := Option.ite_none_right_eq_some.mp h
    rw [← Option.some.inj h]
    exact Slot.ruleName_stem (.group group)
  | blocklist =>
    obtain ⟨addresses, -, rfl⟩ := Option.map_eq_some_iff.mp h
    exact Slot.ruleName_stem .blocklist

theorem ruleName_of_mem_asked {arn : String} {rule : Rule}
    (h : rule ∈ Operation.asked intents.config arn intents.operations) :
    Name.RuleName rule.name := by
  rw [asked_operations] at h
  obtain ⟨slot, -, hslot⟩ := List.mem_filterMap.mp h
  exact ruleName_of_ruleAt? hslot

theorem names_of_mem_rules {rule : Rule} (h : rule ∈ intents.draft.rules) :
    Name.RuleName rule.name ∧ Name.MetricName rule.visibility.metricName := by
  have hasked : rule.withReference "" ∈ Operation.asked intents.config "" intents.operations := by
    rw [← Draft.map_withReference_rules_new]
    exact List.mem_map_of_mem h
  have hname : Name.RuleName (rule.withReference "").name := intents.ruleName_of_mem_asked hasked
  have hshape := (Draft.WellFormed.new intents.config).run intents.operations
  have hmetric : rule.visibility.metricName = rule.name := by
    rcases List.mem_append.mp h with hcount | hblock
    · exact (hshape.countRules rule hcount).metric
    · exact (hshape.blockRules rule hblock).metric
  refine ⟨hname, ?_⟩
  rw [hmetric]
  exact hname.metricName

/-- Of a document no rule is reported. -/
theorem review_draft : intents.draft.review = intents.config.nameEvents := by
  obtain ⟨examined, hexamined, hreview⟩ :=
    Draft.review_new intents.config intents.operations ""
  have hnone : examined.flatMap (·.nameEvents intents.config.name) = [] :=
    List.flatMap_eq_nil_iff.mpr fun rule hrule =>
      Rule.nameEvents_eq_nil (intents.ruleName_of_mem_asked (hexamined.subset hrule))
  rw [draft, hreview, hnone, List.append_nil]

theorem lines_buildWarnings (h : intents.draft.rules ≠ []) :
    intents.draft.buildWarnings.map Event.line = intents.nameLines := by
  rw [Draft.buildWarnings_of_nodup h intents.nodup_names_draft, review_draft, Config.nameEvents,
    nameLines, List.map_append]
  split_ifs <;> rfl

/-! ### Counts -/

theorem countRules_draft (arn : String) : intents.draft.countRules =
    ((Preset.ofQueue .count).map Slot.throttle).filterMap (intents.ruleAt? arn) := by
  rw [draft, Draft.countRules_new _ _ arn]
  simp only [operations, List.flatMap_append, flatMap_rules_bodies, flatMap_rules_managed,
    flatMap_rules_blocklist, flatMap_rules_presets]
  rfl

theorem length_countRules_draft : intents.draft.countRules.length = intents.countLimits := by
  have hset : ∀ preset : Preset,
      (intents.ruleAt? "" (.throttle preset)).isSome = (intents.throttle.limit preset).isSome :=
    fun preset => Option.isSome_map ..
  rw [intents.countRules_draft "", List.filterMap_map, List.length_filterMap_eq_countP]
  simp only [Function.comp_apply, hset]
  simp [countLimits, limitTable, Preset.ofQueue, List.countP_cons]

/-! ### The events of a template -/

theorem events_template : intents.template.events =
    intents.trace ++ (intents.draft.build Register.create []).events := rfl

/-- The register reports the IP set that it records. -/
theorem mem_events_create {spec : IpSetSpec} {register : Register} {event : Event}
    (h : event ∈ (Register.create spec register).events) :
    event = .ipSetRecorded spec.logicalId spec.addresses.length := by
  unfold Register.create at h
  split at h
  · cases h
  · exact List.mem_singleton.mp h

/-- Whatever happens to a document, an event is about a missing limit, about a name of the list, about
its IP set, or the completion. -/
theorem mem_events {event : Event} (h : event ∈ intents.template.events) :
    (∃ preset acl, event = .limitMissing preset acl) ∨ event ∈ intents.config.nameEvents ∨
      (∃ logicalId addresses, event = .ipSetRecorded logicalId addresses) ∨
      event = intents.draft.completed := by
  rw [events_template, draft, Draft.events_build_new, ← draft, List.mem_append, List.mem_append,
    List.mem_append] at h
  rcases h with h | h | h | h
  · rw [trace_eq] at h
    obtain ⟨preset, -, rfl⟩ := List.mem_map.mp h
    exact Or.inl ⟨preset, _, rfl⟩
  · by_cases hnil : intents.draft.rules = []
    · rw [Draft.buildWarnings_of_nil hnil] at h
      cases h
    · rw [Draft.buildWarnings_of_nodup hnil intents.nodup_names_draft, review_draft] at h
      exact Or.inr (Or.inl h)
  · obtain ⟨call, -, hcall⟩ := List.mem_flatMap.mp h
    exact Or.inr (Or.inr (Or.inl ⟨_, _, mem_events_create hcall⟩))
  · cases hresult : (intents.draft.build Register.create []).result with
    | error error =>
      rw [hresult] at h
      cases h
    | ok acl =>
      rw [hresult] at h
      exact Or.inr (Or.inr (Or.inr (List.mem_singleton.mp h)))

section Built

variable {intents} {template : Template} (h : intents.draft.configurationError? = none)
  (built : intents.template.result = .ok template)

include h built

theorem length_rules_built :
    template.acl.rules.length = intents.countLimits + intents.draft.blockRules.length := by
  rw [intents.template_of_no_configurationError h] at built
  rw [← Except.ok.inj built, ← length_countRules_draft, Draft.resolved, Draft.aclOf,
    RankedRule.length_rank, List.length_map, Draft.rules, List.length_append]

/-- A document without configuration errors has its IP set recorded and is completed. -/
theorem lines_built :
    (intents.draft.provided Register.create [] ++
        intents.draft.completion (intents.draft.build Register.create []).result).map Event.line =
      intents.builtLines template := by
  have hblock : template.acl.rules.length - intents.countLimits =
      intents.draft.blockRules.length := by
    rw [length_rules_built h built]
    exact Nat.add_sub_cancel_left ..
  have hprovided : intents.draft.provided Register.create [] =
      intents.blocklist.toList.map fun addresses =>
        .ipSetRecorded "BlocklistIpSet" addresses.length := by
    rw [Draft.provided, draft, Draft.calls_new h, restrictions_operations, List.flatMap_map]
    cases intents.blocklist <;> rfl
  rw [hprovided, (intents.build_draft h).1, builtLines, hblock, ← length_countRules_draft,
    List.map_append, List.map_map]
  rw [intents.template_of_no_configurationError h] at built
  rw [← Except.ok.inj built, ← config_draft]
  rfl

end Built

/-- A document with rules fails only at a limit of zero. -/
theorem exists_invalidRateLimit {error : AclError} (hne : intents.draft.rules ≠ [])
    (h : intents.template.result = .error error) : ∃ rule, error = .invalidRateLimit rule 0 := by
  rcases intents.template_eq_error_iff.mp h with ⟨hblank, -⟩ | ⟨preset, -, herror⟩
  · exact absurd (intents.rules_draft_eq_nil.mpr hblank) hne
  · exact ⟨_, herror⟩

theorem lines_build : (intents.draft.build Register.create []).events.map Event.line =
    intents.buildLines := by
  rw [draft, Draft.events_build_new, ← draft, buildLines, List.map_append]
  by_cases hnil : intents.draft.rules = []
  · have hconf := Draft.configurationError?_of_nil hnil
    rw [intents.template_of_configurationError hconf, Draft.buildWarnings_of_nil hnil,
      Draft.provided, Draft.calls_of_configurationError hconf,
      Draft.build_of_configurationError hconf]
    rfl
  · rw [intents.lines_buildWarnings hnil]
    cases hconf : intents.draft.configurationError? with
    | some error =>
      have herror := intents.template_of_configurationError hconf
      obtain ⟨rule, rfl⟩ := intents.exists_invalidRateLimit hnil herror
      rw [herror, Draft.provided, Draft.calls_of_configurationError hconf,
        Draft.build_of_configurationError hconf]
      exact List.append_nil _
    | none =>
      have built := intents.template_of_no_configurationError hconf
      rw [lines_built hconf built, built]

theorem bodyReplaced_not_mem_events (acl key : String) :
    .bodyReplaced acl key ∉ intents.template.events := by
  intro h
  rcases intents.mem_events h with ⟨_, _, heq⟩ | hmem | ⟨_, _, heq⟩ | heq
  · cases heq
  · obtain ⟨kind, value, -, heq⟩ := Config.exists_of_mem_nameEvents hmem
    cases heq
  · cases heq
  · cases heq

theorem ruleDoubtful_not_mem_events (acl name : String) :
    .nameDoubtful acl .rule name ∉ intents.template.events := by
  intro h
  rcases intents.mem_events h with ⟨_, _, heq⟩ | hmem | ⟨_, _, heq⟩ | heq
  · cases heq
  · obtain ⟨kind, value, hkind, heq⟩ := Config.exists_of_mem_nameEvents hmem
    cases heq
    exact hkind rfl
  · cases heq
  · cases heq

theorem countLimits_le {template : Template} (built : intents.template.result = .ok template) :
    intents.countLimits ≤ template.acl.rules.length := by
  cases hconf : intents.draft.configurationError? with
  | some error =>
    rw [intents.template_of_configurationError hconf] at built
    cases built
  | none =>
    rw [length_rules_built hconf built]
    exact Nat.le_add_right ..

/-- **The log of a document.** What is logged while a document is made into a template is what can be
read off it, line by line and up to where it fails. No body is ever replaced and no rule is ever
reported: every name of a rule that a document can bring about, whatever the limits, is a rule name
and a metric name. -/
theorem lines_template : intents.template.events.map Event.line = intents.log ∧
    (∀ acl key, .bodyReplaced acl key ∉ intents.template.events) ∧
    (∀ acl name, .nameDoubtful acl .rule name ∉ intents.template.events) ∧
    (∀ rule ∈ intents.draft.rules,
      Name.RuleName rule.name ∧ Name.MetricName rule.visibility.metricName) ∧
    ∀ template, intents.template.result = .ok template →
      intents.countLimits ≤ template.acl.rules.length := by
  refine ⟨?_, intents.bodyReplaced_not_mem_events, intents.ruleDoubtful_not_mem_events,
    fun rule => intents.names_of_mem_rules, fun template => intents.countLimits_le⟩
  rw [events_template, List.map_append, lines_trace, lines_build, log]

end Intents

end WebAcl
