import WebAcl.Proofs.Building

/-! # The verdict on operations

Which error a build ends with, or that it ends without one, can be read off the operations alone.
There is no rule exactly if every operation is idle (`Operation.asked_eq_nil`), and what is wrong with
a rule is a matter of the rule and of the keys that any operation registers, before or after it
(`Operation.Defect`). The main statement goes through the causes in their order: no rule, shared
names, the first defect in the order of priority, the provisioner. -/

namespace WebAcl

variable {σ : Type}

namespace Operation

/-! ### What is asked for -/

/-- An operation that asks for no rule. -/
def Idle : Operation → Prop
  | .managedRules selection _ => selection.groups = []
  | .ipRestriction _ => False
  | .throttle _ _ _ _ _ => False
  | .responseBody _ _ => True
  | .preset _ limit => limit = none

/-- What is wrong with a rule among these operations: a limit of zero, or else a response body that
none of them registers. -/
inductive Defect (operations : List Operation) (rule : Rule) : AclError → Prop where
  | limit {rate : Rate} {scopeDown : Statement}
      (statement : rule.statement = .rateBased rate scopeDown) (zero : rate.limit = 0) :
      Defect operations rule (.invalidRateLimit rule.name 0)
  | body {code : UInt16} {key : String} (verdict : rule.verdict = .block (some ⟨code, key⟩))
      (missing : ∀ operation ∈ operations, ¬ operation.Registers key)
      (positive : ∀ rate scopeDown, rule.statement = .rateBased rate scopeDown → rate.limit ≠ 0) :
      Defect operations rule (.missingResponseBody rule.name key)

variable {config : Config} {arn : String} {operations : List Operation}

theorem rules_eq_nil {operation : Operation} :
    (∀ queue, operation.rules config arn queue = []) ↔ operation.Idle := by
  cases operation with
  | managedRules selection exclusions =>
    constructor
    · exact fun h => List.map_eq_nil_iff.mp (h .block)
    · intro h queue
      rw [rules, show selection.groups = [] from h]
      exact ite_self _
  | ipRestriction addresses => exact ⟨fun h => List.cons_ne_nil _ _ (h .block), False.elim⟩
  | throttle name limit condition key action =>
    refine ⟨fun h => ?_, False.elim⟩
    have hqueue := h action.queue
    rw [rules, if_pos rfl] at hqueue
    cases hqueue
  | responseBody key body => exact ⟨fun _ => trivial, fun _ _ => rfl⟩
  | preset named limit =>
    cases limit with
    | none => exact ⟨fun _ => rfl, fun _ _ => rfl⟩
    | some limit =>
      refine ⟨fun h => ?_, fun h => by cases h⟩
      have hqueue := h named.queue
      rw [rules, if_pos rfl] at hqueue
      cases hqueue

/-- **There is no rule** exactly if every operation is idle. -/
theorem asked_eq_nil : asked config arn operations = [] ↔
    ∀ operation ∈ operations, operation.Idle := by
  rw [List.eq_nil_iff_forall_not_mem]
  constructor
  · intro h operation hmem
    have hnil : ∀ queue, operation.rules config arn queue = [] := fun queue =>
      List.eq_nil_iff_forall_not_mem.mpr fun rule hrule =>
        h rule (mem_asked.mpr ⟨queue, operation, hmem, hrule⟩)
    exact rules_eq_nil.mp hnil
  · intro h rule hrule
    obtain ⟨queue, operation, hmem, hrule⟩ := mem_asked.mp hrule
    rw [rules_eq_nil.mpr (h operation hmem) queue] at hrule
    cases hrule

/-- A named throttle finds the response body that it names. -/
theorem not_defect_of_preset {named : Preset} {limit : UInt64} {queue : Queue} {rule : Rule}
    (hmem : .preset named (some limit) ∈ operations)
    (hrule : rule ∈ (Operation.preset named (some limit)).rules config arn queue)
    (name key : String) : ¬ Defect operations rule (.missingResponseBody name key) := by
  rintro (_ | ⟨hverdict, hmissing, -⟩)
  rw [rules] at hrule
  split at hrule
  · rw [List.mem_singleton.mp hrule] at hverdict
    have hkey := Rule.responseKey?_eq_some.mpr ⟨_, hverdict⟩
    exact hmissing _ hmem ((Preset.responseKey?_rule_eq_some named limit _).mp hkey)
  · cases hrule

end Operation

/-! ### The verdict -/

namespace Draft

variable {config : Config} {operations : List Operation}

/-- The draft finds the defects that the operations have. -/
theorem defect?_eq_some {rule : Rule} {error : AclError} :
    ((new config).run operations).defect? rule = some error ↔
      Operation.Defect operations rule error := by
  unfold defect?
  split_ifs with hlimit
  · obtain ⟨rate, scopeDown, hstatement, hzero⟩ := Rule.limit?_eq_some.mp hlimit
    constructor
    · rintro ⟨⟩
      exact .limit hstatement hzero
    · rintro (_ | ⟨-, -, hpositive⟩)
      · rfl
      · exact absurd hzero (hpositive rate scopeDown hstatement)
  · have hpositive : ∀ rate scopeDown, rule.statement = .rateBased rate scopeDown →
        rate.limit ≠ 0 := fun rate scopeDown hstatement hzero =>
      hlimit (Rule.limit?_eq_some.mpr ⟨rate, scopeDown, hstatement, hzero⟩)
    rcases hkey : rule.responseKey? with _ | key
    · refine ⟨nofun, ?_⟩
      rintro (⟨hstatement, hzero⟩ | ⟨hverdict, -, -⟩)
      · exact absurd hzero (hpositive _ _ hstatement)
      · rw [Rule.responseKey?_eq_some.mpr ⟨_, hverdict⟩] at hkey
        cases hkey
    · obtain ⟨code, hverdict⟩ := Rule.responseKey?_eq_some.mp hkey
      have hregistered : ((new config).run operations).bodies.contains key ↔
          ∃ operation ∈ operations, operation.Registers key := contains_new config operations
      simp only
      constructor
      · intro h
        split at h
        · cases h
        · next hmissing =>
          cases h
          refine .body hverdict (fun operation hmem hregisters => hmissing ?_) hpositive
          exact hregistered.mpr ⟨operation, hmem, hregisters⟩
      · rintro (⟨hstatement, hzero⟩ | ⟨hother, hmissing, -⟩)
        · exact absurd hzero (hpositive _ _ hstatement)
        · rw [hverdict] at hother
          cases hother
          refine if_neg fun hcontains => ?_
          obtain ⟨operation, hmem, hregisters⟩ := hregistered.mp hcontains
          exact hmissing operation hmem hregisters

theorem defect?_eq_none_iff {rule : Rule} : ((new config).run operations).defect? rule = none ↔
    ∀ error, ¬ Operation.Defect operations rule error := by
  rw [Option.eq_none_iff_forall_ne_some]
  exact forall_congr' fun error => not_congr defect?_eq_some

/-- The first defect among the rules of a draft is the first among those that are asked for. -/
theorem findSome?_defect?_rules (arn : String) :
    ((new config).run operations).rules.findSome? ((new config).run operations).defect? =
      (Operation.asked config arn operations).findSome? ((new config).run operations).defect? := by
  rw [← map_withReference_rules_new config operations arn, List.findSome?_map]
  refine congrFun (congrArg List.findSome? (funext fun rule => ?_)) _
  exact (defect?_withReference arn rule).symm

theorem rules_eq_nil_iff (config : Config) (operations : List Operation) (arn : String) :
    ((new config).run operations).rules = [] ↔ Operation.asked config arn operations = [] := by
  rw [← map_withReference_rules_new config operations arn, List.map_eq_nil_iff]

/-- **The verdict on operations**, cause by cause in the order in which they count: there is no rule;
rules share a name; the first defective rule; the provisioner refuses the blocklist. Without any of
these the list is built. -/
theorem build_result (config : Config) (operations : List Operation) (create : Provisioner σ)
    (state : σ) (arn : String) :
    (Operation.asked config arn operations = [] ↔ ∀ operation ∈ operations, operation.Idle) ∧
    (Operation.asked config arn operations = [] →
      (((new config).run operations).build create state).result =
        .error (.emptyRuleSet config.name)) ∧
    (¬ ((Operation.asked config arn operations).map (·.name)).Nodup →
      ∃ names, (((new config).run operations).build create state).result =
          .error (.duplicateRuleName config.name names) ∧
        ∀ name, name ∈ names ↔
          2 ≤ ((Operation.asked config arn operations).map (·.name)).count name) ∧
    (((Operation.asked config arn operations).map (·.name)).Nodup →
      ∀ before rule after error,
        Operation.asked config arn operations = before ++ rule :: after →
        (∀ earlier ∈ before, ∀ other, ¬ Operation.Defect operations earlier other) →
        Operation.Defect operations rule error →
        (((new config).run operations).build create state).result = .error error) ∧
    (Operation.asked config arn operations ≠ [] →
      ((Operation.asked config arn operations).map (·.name)).Nodup →
      (∀ rule ∈ Operation.asked config arn operations, ∀ error,
        ¬ Operation.Defect operations rule error) →
      (∀ addresses error, .ipRestriction addresses ∈ operations →
        (create (blocklistSpec config addresses) state).result = .error error →
        (((new config).run operations).build create state).result = .error error) ∧
      ((∀ addresses, .ipRestriction addresses ∈ operations →
          ∃ reference, (create (blocklistSpec config addresses) state).result = .ok reference) →
        ∃ acl, (((new config).run operations).build create state).result = .ok acl)) ∧
    ∀ named limit queue rule name key, .preset named (some limit) ∈ operations →
      rule ∈ (Operation.preset named (some limit)).rules config arn queue →
      ¬ Operation.Defect operations rule (.missingResponseBody name key) := by
  have hnil := rules_eq_nil_iff config operations arn
  refine ⟨Operation.asked_eq_nil, fun hempty => ?_, fun hdup => ?_, ?_, ?_, ?_⟩
  · have herr := configurationError?_of_nil (hnil.mpr hempty)
    rw [build_of_configurationError herr, config_new]
  · rw [← map_name_rules_new] at hdup ⊢
    have herr := configurationError?_of_not_nodup hdup
    refine ⟨repeatedNames (((new config).run operations).rules.map (·.name)), ?_,
      fun name => mem_repeatedNames⟩
    rw [build_of_configurationError herr, config_new]
  · intro hnodup before rule after error hsplit hbefore hdefect
    have hne : ((new config).run operations).rules ≠ [] := by
      rw [Ne, hnil, hsplit]
      exact List.append_ne_nil_of_right_ne_nil _ (List.cons_ne_nil _ _)
    rw [← map_name_rules_new] at hnodup
    have herr := configurationError?_of_nodup hne hnodup
    rw [findSome?_defect?_rules arn, List.findSome?_eq_some_iff.mpr ⟨before, rule, after, hsplit,
      defect?_eq_some.mpr hdefect, fun earlier hmem =>
        defect?_eq_none_iff.mpr (hbefore earlier hmem)⟩] at herr
    rw [build_of_configurationError herr]
  · intro hne hnodup hdefect
    rw [← map_name_rules_new] at hnodup
    have hnone := configurationError?_of_nodup (fun h => hne (hnil.mp h)) hnodup
    rw [findSome?_defect?_rules arn, List.findSome?_eq_none_iff.mpr fun rule hrule =>
      defect?_eq_none_iff.mpr (hdefect rule hrule)] at hnone
    rw [build_new hnone]
    rcases restrictions_cases hnone with hres | ⟨addresses, hres⟩
    · refine ⟨fun addresses error haddr => ?_, fun _ => ⟨_, by rw [hres]; rfl⟩⟩
      exact absurd haddr (Operation.not_mem_of_restrictions_eq_nil hres addresses)
    · have hiff : ∀ other, .ipRestriction other ∈ operations ↔ other = addresses := fun other =>
        Operation.mem_iff_of_restrictions_eq hres
      simp only [hres, result_supplied_cons, config_new]
      refine ⟨fun other error hother herr => ?_, fun hok => ?_⟩
      · rw [← (hiff other).mp hother, herr]
        rfl
      · obtain ⟨reference, hreference⟩ := hok addresses ((hiff addresses).mpr rfl)
        exact ⟨_, by rw [hreference]; rfl⟩
  · intro named limit queue rule name key hmem hrule
    exact Operation.not_defect_of_preset hmem hrule name key

end Draft

end WebAcl
