import WebAcl.Proofs.Building
import Mathlib.Data.List.Nodup

/-! # Built lists are sound

Whatever operations make a draft and whoever creates its IP sets, a list that is built from it can be
deployed: `Acl.Sound` says what that means, rule by rule and at any depth of a statement. The checks
of a build look at the outermost statement and at the final rules only, so the rest follows from what
operations ask for: a throttle limits the rate at the outermost statement and nowhere below it, and
only a blocklist has a reference. -/

namespace WebAcl

variable {σ : Type}

/-- **A sound list**, built from a draft that these operations made, with these calls of the
provisioner. -/
structure Acl.Sound (draft : Draft) (operations : List Operation) (calls : List Call)
    (acl : Acl) : Prop where
  nonempty : acl.rules ≠ []
  distinct : acl.ruleNames.Nodup
  priority : ∀ (i : Nat) (ranked : RankedRule), acl.rules[i]? = some ranked → ranked.priority.toNat = i
  /-- The rules are those of the two queues, in their order, but for one reference. -/
  declared : ∃ arn,
    acl.rules.map (·.rule) = (draft.countRules ++ draft.blockRules).map (·.withReference arn) ∧
    acl.rules.map (·.rule) = Operation.asked draft.config arn operations
  countsFirst : acl.rules.Pairwise fun first second => second.rule.isCount → first.rule.isCount
  answered : ∀ ranked ∈ acl.rules, ∀ code key,
    ranked.rule.verdict = .block (some ⟨code, key⟩) → acl.bodies.contains key
  limited : ∀ ranked ∈ acl.rules, ∀ rate scopeDown,
    .rateBased rate scopeDown ∈ ranked.rule.statement.parts → rate.limit ≠ 0
  /-- A reference was given for the addresses of the rule that has it. -/
  resolved : ∀ (i : Nat) ranked arn,
    acl.rules[i]? = some ranked → .ipSet arn ∈ ranked.rule.statement.parts →
    ∃ rule token addresses, (draft.countRules ++ draft.blockRules)[i]? = some rule ∧
      .ipSet token ∈ rule.statement.parts ∧
      ⟨token, Draft.blocklistSpec draft.config addresses⟩ ∈ draft.pending ∧
      .ipRestriction addresses ∈ operations ∧
      ⟨Draft.blocklistSpec draft.config addresses, .ok arn⟩ ∈ calls
  lookup : ∀ name ranked,
    acl.rule? name = some ranked ↔ ranked ∈ acl.rules ∧ ranked.rule.name = name

/-! ### What is asked for -/

namespace Operation

variable {config : Config} {arn : String} {operations : List Operation}

theorem isCount_of_mem_rules {operation : Operation} {queue : Queue} {rule : Rule}
    (h : rule ∈ operation.rules config arn queue) : rule.isCount ↔ queue = .count := by
  rcases mem_rules_cases h with ⟨group, names, rfl, rfl⟩ | ⟨addresses, -, rfl, rfl⟩ |
    ⟨name, limit, condition, key, action, rfl, rfl⟩
  · simp [Rule.isCount, ManagedGroup.rule]
  · simp [Rule.isCount, Draft.blocklistRule]
  · cases action <;> simp [Rule.isCount, Throttle.rule, ThrottleAction.verdict, ThrottleAction.queue]

theorem pairwise_isCount_asked (config : Config) (arn : String) (operations : List Operation) :
    (asked config arn operations).Pairwise fun first second => second.isCount → first.isCount := by
  refine List.pairwise_append.mpr ⟨?_, ?_, ?_⟩
  · refine List.pairwise_of_forall_mem_list fun first hfirst second _ _ => ?_
    obtain ⟨operation, -, hmem⟩ := List.mem_flatMap.mp hfirst
    exact (isCount_of_mem_rules hmem).mpr rfl
  · refine List.pairwise_of_forall_mem_list fun first _ second hsecond hcount => ?_
    obtain ⟨operation, -, hmem⟩ := List.mem_flatMap.mp hsecond
    cases (isCount_of_mem_rules hmem).mp hcount
  · intro first hfirst second _ _
    obtain ⟨operation, -, hmem⟩ := List.mem_flatMap.mp hfirst
    exact (isCount_of_mem_rules hmem).mpr rfl

/-- A rate is limited at the outermost statement or not at all. -/
theorem limit?_of_mem_parts {rule : Rule} (h : rule ∈ asked config arn operations) {rate : Rate}
    {scopeDown : Statement} (hpart : .rateBased rate scopeDown ∈ rule.statement.parts) :
    rule.limit? = some rate.limit := by
  obtain ⟨queue, operation, -, hmem⟩ := mem_asked.mp h
  rcases mem_rules_cases hmem with ⟨group, names, -, rfl⟩ | ⟨addresses, -, -, rfl⟩ |
    ⟨name, limit, condition, key, action, -, rfl⟩
  · simp [ManagedGroup.rule, Statement.parts] at hpart
  · simp [Draft.blocklistRule, Statement.parts] at hpart
  · rcases List.mem_cons.mp hpart with heq | hbelow
    · cases heq
      rfl
    · cases condition <;> simp [Throttle.probe, Statement.parts] at hbelow

end Operation

/-! ### What is built -/

/-- Where names differ, a name finds its one rule. -/
theorem Acl.rule?_eq_some {acl : Acl} (h : acl.ruleNames.Nodup) {name : String}
    {ranked : RankedRule} :
    acl.rule? name = some ranked ↔ ranked ∈ acl.rules ∧ ranked.rule.name = name := by
  constructor
  · intro hfind
    exact ⟨List.mem_of_find?_eq_some hfind, by simpa using List.find?_some hfind⟩
  · rintro ⟨hmem, hname⟩
    cases hfind : acl.rule? name with
    | none =>
      have hall := List.find?_eq_none.mp hfind ranked hmem
      exact absurd hname (by simpa using hall)
    | some other =>
      have hother : other.rule.name = name := by simpa using List.find?_some hfind
      have heq := List.inj_on_of_nodup_map h (List.mem_of_find?_eq_some hfind) hmem
        (hother.trans hname.symm)
      rw [heq]

namespace Draft

/-- Every reference of a draft stands for an IP set that an operation asks for. -/
theorem pending_of_reference? (config : Config) (operations : List Operation) {rule : Rule}
    {token : String}
    (hrule : rule ∈ ((new config).run operations).rules)
    (href : rule.statement.reference? = some token) :
    ∃ addresses, .ipRestriction addresses ∈ operations ∧
      ⟨token, blocklistSpec config addresses⟩ ∈ ((new config).run operations).pending := by
  have hmem : token ∈ ((new config).run operations).pending.map (·.token) := by
    rw [← references_new]
    exact List.mem_filterMap.mpr ⟨rule, hrule, href⟩
  obtain ⟨wanted, hwanted, rfl⟩ := List.mem_map.mp hmem
  have hfrom := hwanted
  rw [pending_new, pendingFrom] at hfrom
  obtain ⟨⟨addresses, place⟩, hplace, rfl⟩ := List.mem_map.mp hfrom
  exact ⟨addresses, Operation.mem_restrictions.mp (List.fst_mem_of_mem_zipIdx hplace), hwanted⟩

variable {config : Config} {operations : List Operation} {create : Provisioner σ} {state : σ}
  {acl : Acl}

/-- **A list that is built is sound**, if its priorities fit into 32 bits. -/
theorem sound_of_build (few : ((new config).run operations).ruleCount < UInt32.size)
    (built : (((new config).run operations).build create state).result = .ok acl) :
    acl.Sound ((new config).run operations) operations
      (((new config).run operations).calls create state) := by
  obtain ⟨hnone, arn, rfl, harn⟩ := build_ok built
  obtain ⟨hne, hnodup, hdefect⟩ := configurationError?_eq_none.mp hnone
  have hasked := map_withReference_rules_new config operations arn
  have hlength : ((new config).run operations).rules.length < UInt32.size := by
    rw [rules, List.length_append]
    exact few
  rw [← ruleNames_resolved _ arn] at hnodup
  -- every rule of the list was asked for and passes the checks
  have hrule : ∀ ranked ∈ (((new config).run operations).resolved arn).rules,
      ranked.rule ∈ Operation.asked config arn operations ∧
        ((new config).run operations).defect? ranked.rule = none := by
    intro ranked hranked
    obtain ⟨rule, hrule, heq⟩ := mem_resolved hranked
    rw [heq, defect?_withReference, ← hasked]
    exact ⟨List.mem_map_of_mem hrule, hdefect rule hrule⟩
  refine ⟨?_, hnodup, ?_, ⟨arn, map_rule_resolved _ arn, ?_⟩, ?_, ?_, ?_, ?_,
    fun name ranked => Acl.rule?_eq_some hnodup⟩
  · intro hnil
    have hmap := map_rule_resolved ((new config).run operations) arn
    rw [hnil, List.map_nil] at hmap
    exact hne (List.map_eq_nil_iff.mp hmap.symm)
  · intro i ranked hi
    obtain ⟨rule, hget, rfl⟩ := getElem?_resolved hi
    obtain ⟨hlt, -⟩ := List.getElem?_eq_some_iff.mp hget
    exact UInt32.toNat_ofNat_of_lt' (Nat.lt_trans hlt hlength)
  · rw [map_rule_resolved, config_new]
    exact hasked
  · have hpair := Operation.pairwise_isCount_asked config arn operations
    rw [← hasked, ← map_rule_resolved] at hpair
    exact List.pairwise_map.mp hpair
  · intro ranked hranked code key hverdict
    refine (defect?_eq_none.mp (hrule ranked hranked).2).2 key ?_
    rw [Rule.responseKey?, hverdict]
  · intro ranked hranked rate scopeDown hpart hzero
    refine (defect?_eq_none.mp (hrule ranked hranked).2).1 ?_
    rw [Operation.limit?_of_mem_parts (hrule ranked hranked).1 hpart, hzero]
  · intro i ranked reference hi hpart
    obtain ⟨rule, hget, rfl⟩ := getElem?_resolved hi
    have href := Statement.ipSet_mem_parts.mp hpart
    rw [Rule.withReference, Statement.reference?_withReference, Option.map_eq_some_iff] at href
    obtain ⟨token, htoken, rfl⟩ := href
    obtain ⟨addresses, haddr, hwanted⟩ :=
      pending_of_reference? config operations (List.mem_of_getElem? hget) htoken
    obtain ⟨hres, hcreate⟩ := harn addresses haddr
    rw [config_new]
    refine ⟨rule, token, addresses, hget, Statement.ipSet_mem_parts.mpr htoken, hwanted, haddr, ?_⟩
    rw [calls_new hnone, hres, ← hcreate]
    exact List.mem_singleton.mpr rfl

/-- A list with managed groups, two throttles and a blocklist, built over an empty register. -/
theorem exists_sound_build : ∃ operations acl,
    operations = [.allManagedRules, .preset ⟨.block, .absent, .ip⟩ (some 100),
      .preset ⟨.count, .required, .ip⟩ (some 1000), .ipRestriction ["192.0.2.0/24"]] ∧
    ((new .default).run operations).ruleCount < UInt32.size ∧
    (((new .default).run operations).build Register.create []).result = .ok acl ∧
    acl.Sound ((new .default).run operations) operations
      (((new .default).run operations).calls Register.create []) :=
  ⟨_, _, rfl, by decide, rfl, sound_of_build (by decide) rfl⟩

end Draft

end WebAcl
