import WebAcl.Proofs.BodyTable
import WebAcl.Proofs.IntentVerdict

/-! # Templates without drafts

What a document says can be written down at once, without operations, queues, tokens and insertions:
`Intents.direct` lists the rules from the first to the last, with the words of each spelled out, and
the response bodies with their texts. A template that is built is this one (`Intents.template_eq`).
The table of bodies is filled the other way round here, with the bodies of the throttles first and
the declared ones on top of them. -/

namespace WebAcl

theorem RankedRule.rank_eq_mapIdx (rules : List Rule) :
    rank rules = rules.mapIdx fun place rule => ⟨UInt32.ofNat place, rule⟩ := by
  rw [rank, rankFrom, List.mapIdx_eq_zipIdx_map]

namespace Intents

/-! ### The template of a document -/

/-- The counting throttles with the words in front of the limit in their names. -/
def countTable : List (Preset × String) := [
  (⟨.count, .required, .ip⟩, "CountRuleWithDigitrafficUser"),
  (⟨.count, .required, .ipAndUriPath⟩, "CountRuleIPQueryWithDigitrafficUser"),
  (⟨.count, .absent, .ip⟩, "CountRuleWithAnonymousUser"),
  (⟨.count, .absent, .ipAndUriPath⟩, "CountRuleIPQueryWithAnonymousUser")]

/-- The blocking throttles with their names and the words in front of the limit in their keys. -/
def blockTable : List (Preset × String × String) := [
  (⟨.block, .required, .ip⟩, "ThrottleRuleWithDigitrafficUser", "IP_THROTTLE_DIGITRAFFIC_USER_"),
  (⟨.block, .required, .ipAndUriPath⟩, "ThrottleRuleIPQueryWithDigitrafficUser",
    "IP_PATH_THROTTLE_DIGITRAFFIC_USER_"),
  (⟨.block, .absent, .ip⟩, "ThrottleRuleWithAnonymousUser", "IP_THROTTLE_ANONYMOUS_USER_"),
  (⟨.block, .absent, .ipAndUriPath⟩, "ThrottleRuleIPQueryWithAnonymousUser",
    "IP_PATH_THROTTLE_ANONYMOUS_USER_")]

/-- The managed groups with the vendor's names and the rules that are always excluded. -/
def groupTable : List (ManagedGroup × String × List String) := [
  (.common, "AWSManagedRulesCommonRuleSet",
    ["NoUserAgent_HEADER", "SizeRestrictions_BODY", "GenericRFI_BODY"]),
  (.ipReputation, "AWSManagedRulesAmazonIpReputationList", []),
  (.knownBadInputs, "AWSManagedRulesKnownBadInputsRuleSet", []),
  (.sqlInjection, "AWSManagedRulesSQLiRuleSet", [])]

variable (intents : Intents)

/-- More than `limit` requests in five minutes, by address or by path and address, of clients with
or without the configured header. -/
def rateStatement (preset : Preset) (limit : UInt64) : Statement :=
  .rateBased
    (match preset.key with
      | .ip => ⟨.ip, none, limit, 300⟩
      | .ipAndUriPath => ⟨.customKeys,
          some [.uriPath [⟨1, .lowercase⟩, ⟨2, .normalizePath⟩, ⟨3, .md5⟩], .ip], limit, 300⟩)
    (match preset.condition with
      | .required => .sizeBound ⟨.greater, intents.config.userHeader, [⟨0, .none⟩], 0⟩
      | .absent => .not (.sizeBound ⟨.atLeast, intents.config.userHeader, [⟨0, .none⟩], 0⟩))

/-- A counting rule for each limit that is set; its name ends in the limit. -/
def countRules : List Rule :=
  countTable.filterMap fun (preset, words) =>
    (intents.throttle.limit preset).map fun limit =>
      ⟨words ++ Text.decimal limit.toNat, .count, intents.rateStatement preset limit,
        ⟨true, true, words ++ Text.decimal limit.toNat⟩⟩

/-- A rule for each managed group that is selected, less the excluded rules. -/
def groupRules : List Rule :=
  match intents.managed with
  | none => []
  | some managed =>
    (match managed.selection with
      | .all => groupTable
      | .only groups => groupTable.filter fun (group, _) => group ∈ groups).map
    fun (group, name, standing) =>
      ⟨"AWS-" ++ name, .group,
        .managedGroup
          ⟨"AWS", name, (standing ++ (managed.exclusions.entry group).getD []).eraseDups⟩,
        ⟨true, true, "AWS-" ++ name⟩⟩

/-- The rule for the addresses that are blocked. -/
def blocklistRules : List Rule :=
  if intents.blocklist.isSome then
    [⟨"IpBlocklist", .block none, .ipSet "$\x7bBlocklistIpSet.Arn\x7d",
      ⟨false, true, "IpBlocklist"⟩⟩]
  else []

/-- A rule that blocks with the status code 429 for each limit that is set. -/
def blockRules : List Rule :=
  blockTable.filterMap fun (preset, name, words) =>
    (intents.throttle.limit preset).map fun limit =>
      ⟨name, .block (some ⟨429, words ++ Text.decimal limit.toNat⟩),
        intents.rateStatement preset limit, ⟨true, true, name⟩⟩

/-- The text of each limit that blocks, under its key. -/
def limitBodies : List (String × ResponseBody) :=
  blockTable.filterMap fun (preset, _, words) =>
    (intents.throttle.limit preset).map fun limit =>
      (words ++ Text.decimal limit.toNat,
        ⟨"Request rate is limited to " ++ Text.decimal limit.toNat ++
          " requests in a 5 minute window.", .textPlain⟩)

/-- The texts of the limits and, in place of them where the keys are equal, the declared bodies. -/
def bodyTable : KeyTable ResponseBody :=
  (intents.limitBodies ++ intents.bodies.entries).foldl
    (fun table (key, body) => table.insert key body) .empty

/-- **The template of a document**, read directly off it. -/
def direct : Template where
  ipSets := intents.blocklist.toList.map fun addresses =>
    ⟨"BlocklistIpSet", intents.config.scope, intents.config.addressVersion, addresses⟩
  acl :=
    { name := intents.config.name
      scope := intents.config.scope
      visibility := intents.config.visibility
      rules := (intents.countRules ++ intents.groupRules ++ intents.blocklistRules ++
        intents.blockRules).mapIdx fun place rule => ⟨UInt32.ofNat place, rule⟩
      bodies := intents.bodyTable }

/-! ### The rules -/

theorem countRules_eq (arn : String) : intents.countRules =
    ((Preset.ofQueue .count).map Slot.throttle).filterMap (intents.ruleAt? arn) := by
  have htable : countTable = (Preset.ofQueue .count).map fun preset => (preset, preset.stem) := rfl
  rw [countRules, htable, List.filterMap_map, List.filterMap_map]
  refine List.filterMap_congr fun preset hpreset => ?_
  obtain ⟨queue, condition, key⟩ := preset
  obtain rfl : queue = .count := Preset.mem_ofQueue.mp hpreset
  -- what is left are the words and the statement of each of the four lines
  cases condition <;> cases key <;> rfl

theorem blockTable_eq : blockTable = (Preset.ofQueue .block).map fun preset =>
    (preset, preset.stem, preset.bodyStem) := rfl

theorem blockRules_eq (arn : String) : intents.blockRules =
    ((Preset.ofQueue .block).map Slot.throttle).filterMap (intents.ruleAt? arn) := by
  rw [blockRules, blockTable_eq, List.filterMap_map, List.filterMap_map]
  refine List.filterMap_congr fun preset hpreset => ?_
  obtain ⟨queue, condition, key⟩ := preset
  obtain rfl : queue = .block := Preset.mem_ofQueue.mp hpreset
  cases condition <;> cases key <;> rfl

theorem blocklistRules_eq : intents.blocklistRules =
    [Slot.blocklist].filterMap (intents.ruleAt? (Register.reference "BlocklistIpSet")) := by
  rw [blocklistRules]
  cases hblocklist : intents.blocklist with
  | none => simp [ruleAt?, hblocklist]
  | some addresses =>
    simp only [List.filterMap_cons, ruleAt?, hblocklist]
    rfl

theorem groupRules_eq (arn : String) : intents.groupRules =
    (ManagedGroup.all.map Slot.group).filterMap (intents.ruleAt? arn) := by
  have htable : groupTable = ManagedGroup.all.map fun group =>
    (group, group.vendorName, group.standingExclusions) := rfl
  cases hmanaged : intents.managed with
  | none =>
    rw [intents.filterMap_ruleAt?_group_of_none arn hmanaged, groupRules, hmanaged]
  | some managed =>
    rw [intents.filterMap_ruleAt?_group arn hmanaged, groupRules, hmanaged]
    -- the chosen lines of the table are those of the selected groups
    have hchosen : (match managed.selection with
          | .all => groupTable
          | .only groups => groupTable.filter fun (group, _) => group ∈ groups) =
        managed.selection.groups.map fun group =>
          (group, group.vendorName, group.standingExclusions) := by
      cases managed.selection with
      | all => exact htable
      | only groups =>
        dsimp only
        rw [htable, List.filter_map]
        refine congrArg _ (List.filter_congr fun group _ => ?_)
        exact (List.elem_eq_mem ..).symm
    simp only [hchosen, List.map_map]
    refine List.map_congr_left fun group _ => ?_
    cases group <;> rfl

/-- The rules are those of the slots, in their order. -/
theorem rules_eq : intents.countRules ++ intents.groupRules ++ intents.blocklistRules ++
      intents.blockRules =
    Slot.all.filterMap (intents.ruleAt? (Register.reference "BlocklistIpSet")) := by
  rw [Slot.all, List.filterMap_append, List.filterMap_append, List.filterMap_append,
    ← countRules_eq, ← groupRules_eq, ← blocklistRules_eq, ← blockRules_eq]

/-! ### The response bodies -/

variable {intents}

theorem responseBody_mem_operations {key : String} {body : ResponseBody} :
    .responseBody key body ∈ intents.operations ↔ intents.bodies.get? key = some body := by
  rw [KeyTable.get?_eq_some]
  simp [operations]

theorem lastDeclared?_operations (key : String) :
    Operation.lastDeclared? key intents.operations = intents.bodies.get? key := by
  cases hlast : Operation.lastDeclared? key intents.operations with
  | none =>
    refine (Option.eq_none_iff_forall_ne_some.mpr fun body hbody => ?_).symm
    exact Operation.lastDeclared?_eq_none.mp hlast body (responseBody_mem_operations.mpr hbody)
  | some body =>
    obtain ⟨before, after, hsplit, -⟩ := Operation.lastDeclared?_eq_some.mp hlast
    refine (responseBody_mem_operations.mp ?_).symm
    rw [hsplit]
    exact List.mem_append_right _ List.mem_cons_self

theorem mem_limitBodies {key : String} {body : ResponseBody} : (key, body) ∈ intents.limitBodies ↔
    Operation.firstDerived? key intents.operations = some body := by
  rw [Operation.firstDerived?_eq_some, limitBodies, blockTable_eq, List.filterMap_map,
    List.mem_filterMap]
  constructor
  · rintro ⟨named, hnamed, hbody⟩
    obtain ⟨limit, hlimit, heq⟩ := Option.map_eq_some_iff.mp hbody
    obtain ⟨rfl, rfl⟩ := Prod.mk.inj heq
    refine ⟨named, limit, preset_mem_operations.mpr hlimit, Preset.mem_ofQueue.mp hnamed, rfl, ?_⟩
    rw [Throttle.explanation_eq]
    rfl
  · rintro ⟨named, limit, hmem, hblock, rfl, rfl⟩
    refine ⟨named, Preset.mem_ofQueue.mpr hblock, ?_⟩
    refine Option.map_eq_some_iff.mpr ⟨limit, preset_mem_operations.mp hmem, ?_⟩
    rw [Throttle.explanation_eq]
    rfl

/-- A declared body comes before the text of a limit. -/
theorem get?_bodyTable (key : String) : intents.bodyTable.get? key =
    (intents.bodies.get? key).or (Operation.firstDerived? key intents.operations) := by
  have hdeclared : intents.bodies.entries.reverse.lookup key = intents.bodies.get? key :=
    KeyTable.lookup_eq_of_mem_iff
      (fun _ _ => List.mem_reverse.trans KeyTable.get?_eq_some.symm) key
  have hlimit : intents.limitBodies.reverse.lookup key =
      Operation.firstDerived? key intents.operations :=
    KeyTable.lookup_eq_of_mem_iff (fun _ _ => List.mem_reverse.trans mem_limitBodies) key
  rw [bodyTable, KeyTable.get?_foldl_insert, List.reverse_append, List.lookup_append, hdeclared,
    hlimit, KeyTable.get?_empty, Option.or_none]

theorem bodies_draft : intents.draft.bodies = intents.bodyTable := by
  refine KeyTable.ext_get? fun key => ?_
  rw [draft, Draft.get?_new, lastDeclared?_operations, get?_bodyTable]

/-! ### The template -/

theorem resolved_draft :
    intents.draft.resolved (Register.reference "BlocklistIpSet") = intents.direct.acl := by
  have hrules : intents.draft.rules.map (·.withReference (Register.reference "BlocklistIpSet")) =
      intents.countRules ++ intents.groupRules ++ intents.blocklistRules ++ intents.blockRules := by
    rw [draft, Draft.map_withReference_rules_new, asked_operations, rules_eq]
  rw [Draft.resolved, hrules, RankedRule.rank_eq_mapIdx, Draft.aclOf, config_draft, bodies_draft,
    direct]

/-- **A document is built as it reads.** -/
theorem template_eq {template : Template} (built : intents.template.result = .ok template) :
    template = intents.direct := by
  cases herror : intents.draft.configurationError? with
  | some error =>
    rw [intents.template_of_configurationError herror] at built
    cases built
  | none =>
    rw [intents.template_of_no_configurationError herror, resolved_draft] at built
    exact (Except.ok.inj built).symm

/-- Two managed groups, a blocklist, a throttle of each kind, and a declared body in place of the
text of a limit. -/
theorem template_eq_of_each_kind : ∃ (intents : Intents) (template : Template),
    intents =
      { config := .default
        managed := some ⟨.only [.sqlInjection, .common, .sqlInjection],
          Exclusions.none.insert .common ["CrossSiteScripting_BODY"]⟩
        blocklist := some ["192.0.2.0/24"]
        throttle := (ThrottleLimits.none.insert ⟨.block, .absent, .ip⟩ (some 100)).insert
          ⟨.count, .required, .ip⟩ (some 2000)
        bodies := KeyTable.empty.insert "IP_THROTTLE_ANONYMOUS_USER_100" ⟨"{}",
          .applicationJson⟩ } ∧
    intents.template.result = .ok template ∧ template = intents.direct ∧
    template.acl.ruleNames =
      ["CountRuleWithDigitrafficUser2000", "AWS-AWSManagedRulesCommonRuleSet",
        "AWS-AWSManagedRulesSQLiRuleSet", "IpBlocklist", "ThrottleRuleWithAnonymousUser"] ∧
    template.acl.bodies.entries =
      [("IP_THROTTLE_ANONYMOUS_USER_100", ⟨"{}", .applicationJson⟩)] :=
  ⟨_, _, rfl, rfl, template_eq rfl, rfl, rfl⟩

end Intents

end WebAcl
