import WebAcl.Proofs.Provisioning
import WebAcl.Proofs.RepeatedNames
import Mathlib.Tactic.ByContra
import Mathlib.Tactic.SplitIfs

/-! # The course of a build

A build first looks for a configuration error and then creates the IP sets. For a draft that was made
by operations the second half is known: `Draft.build_new` gives the whole outcome, `Draft.build_ok`
reads a built list off it, and `Draft.calls_new` the calls. The main statement says which errors come
before any call and which after: a configuration error means that nobody was called, and otherwise
there was one call for each blocklist that is asked for. -/

namespace WebAcl

variable {σ : Type}

namespace Preset

variable (preset : Preset) (limit : UInt64) (header : String)

theorem limit?_rule : (preset.rule limit header).limit? = some limit :=
  Rule.limit?_eq_some.mpr ⟨_, _, rfl, by cases preset.key <;> rfl⟩

/-- A named throttle names a response body if it blocks, and then the one of its limit. -/
theorem responseKey?_rule_eq_some {key : String} :
    (preset.rule limit header).responseKey? = some key ↔
      preset.queue = .block ∧ preset.bodyKey limit = key := by
  have hverdict : (preset.rule limit header).verdict = (preset.action limit).verdict := rfl
  unfold Rule.responseKey?
  rw [hverdict, action]
  cases preset.queue <;> simp [ThrottleAction.verdict]

end Preset

namespace Draft

/-! ### Configuration errors -/

section Checks

variable {draft : Draft}

/-- The checks do not look at references. -/
theorem defect?_withReference (arn : String) (rule : Rule) :
    draft.defect? (rule.withReference arn) = draft.defect? rule := by
  obtain ⟨name, verdict, statement, visibility⟩ := rule
  cases statement <;> rfl

theorem defect?_eq_none {rule : Rule} : draft.defect? rule = none ↔
    rule.limit? ≠ some 0 ∧ ∀ key, rule.responseKey? = some key → draft.bodies.contains key := by
  unfold defect?
  split_ifs with hlimit
  · simp [hlimit]
  · cases rule.responseKey? with
    | none => simp [hlimit]
    | some key => simp [hlimit]

theorem isConfiguration_of_defect {rule : Rule} {error : AclError}
    (h : draft.defect? rule = some error) : error.isConfiguration := by
  unfold defect? at h
  split at h
  · cases h
    rfl
  · split at h
    · split at h
      · cases h
      · cases h
        rfl
    · cases h

theorem isConfiguration_of_configurationError {error : AclError}
    (h : draft.configurationError? = some error) : error.isConfiguration := by
  unfold configurationError? at h
  split at h
  · cases h
    rfl
  · split at h
    · obtain ⟨rule, -, hrule⟩ := List.exists_of_findSome?_eq_some h
      exact isConfiguration_of_defect hrule
    · cases h
      rfl

theorem configurationError?_of_nil (h : draft.rules = []) :
    draft.configurationError? = some (.emptyRuleSet draft.config.name) := by
  rw [configurationError?, h]
  rfl

theorem configurationError?_of_nodup (hne : draft.rules ≠ [])
    (hnodup : (draft.rules.map (·.name)).Nodup) :
    draft.configurationError? = draft.rules.findSome? draft.defect? := by
  rw [configurationError?, if_neg (by simpa using hne), repeatedNames_eq_nil.mpr hnodup]

theorem configurationError?_of_not_nodup (h : ¬ (draft.rules.map (·.name)).Nodup) :
    draft.configurationError? =
      some (.duplicateRuleName draft.config.name (repeatedNames (draft.rules.map (·.name)))) := by
  have hne : draft.rules ≠ [] := by
    intro hnil
    rw [hnil] at h
    exact h List.nodup_nil
  rw [configurationError?, if_neg (by simpa using hne)]
  split
  · next hnil => exact absurd (repeatedNames_eq_nil.mp hnil) h
  · rfl

/-- **No configuration error**: there is a rule, the names differ, and no rule has a defect. -/
theorem configurationError?_eq_none : draft.configurationError? = none ↔
    draft.rules ≠ [] ∧ (draft.rules.map (·.name)).Nodup ∧
      ∀ rule ∈ draft.rules, draft.defect? rule = none := by
  constructor
  · intro h
    have hne : draft.rules ≠ [] := by
      intro hnil
      rw [configurationError?_of_nil hnil] at h
      cases h
    have hnodup : (draft.rules.map (·.name)).Nodup := by
      by_contra hdup
      rw [configurationError?_of_not_nodup hdup] at h
      cases h
    rw [configurationError?_of_nodup hne hnodup] at h
    exact ⟨hne, hnodup, List.findSome?_eq_none_iff.mp h⟩
  · rintro ⟨hne, hnodup, hdefect⟩
    rw [configurationError?_of_nodup hne hnodup]
    exact List.findSome?_eq_none_iff.mpr hdefect

theorem build_of_configurationError {error : AclError} (h : draft.configurationError? = some error)
    (create : Provisioner σ) (state : σ) :
    draft.build create state = ⟨.error error, state, draft.buildWarnings⟩ := by
  rw [build, h]

end Checks

/-! ### Drafts made by operations -/

section New

variable {config : Config} {operations : List Operation}

/-- **The outcome of a build** without configuration errors. -/
theorem build_new (h : ((new config).run operations).configurationError? = none)
    (create : Provisioner σ) (state : σ) :
    ((new config).run operations).build create state =
      { ((new config).run operations).supplied create state (Operation.restrictions operations) with
        events := ((new config).run operations).buildWarnings ++
          (((new config).run operations).supplied create state
            (Operation.restrictions operations)).events } := by
  rw [build, h]
  simp only
  rw [provision_new config operations create state (configurationError?_eq_none.mp h).2.1]

/-- There is at most one blocklist to create an IP set for. -/
theorem restrictions_cases (h : ((new config).run operations).configurationError? = none) :
    Operation.restrictions operations = [] ∨
      ∃ addresses, Operation.restrictions operations = [addresses] := by
  have hnodup := (configurationError?_eq_none.mp h).2.1
  rw [map_name_rules_new config operations ""] at hnodup
  exact Operation.restrictions_cases_of_nodup hnodup

/-- Where no blocklist is asked for, it does not matter which reference its rule would get. -/
theorem resolved_of_no_restriction (h : Operation.restrictions operations = []) (arn : String) :
    ((new config).run operations).resolved arn = ((new config).run operations).aclOf
      (RankedRule.rank ((new config).run operations).rules) := by
  have hrefs := references_new config operations
  rw [pending_new, h] at hrefs
  rw [resolved, Rule.map_withReference_of_none arn (List.filterMap_eq_nil_iff.mp hrefs)]

/-- A built list holds the rules of the draft, with one reference in place of all tokens: the one
that was given for the blocklist, if there is one. -/
theorem build_ok {create : Provisioner σ} {state : σ} {acl : Acl}
    (h : (((new config).run operations).build create state).result = .ok acl) :
    ((new config).run operations).configurationError? = none ∧
      ∃ arn, acl = ((new config).run operations).resolved arn ∧
        ∀ addresses, .ipRestriction addresses ∈ operations →
          Operation.restrictions operations = [addresses] ∧
            (create (blocklistSpec config addresses) state).result = .ok arn := by
  have hnone : ((new config).run operations).configurationError? = none := by
    cases herr : ((new config).run operations).configurationError? with
    | none => rfl
    | some error =>
      rw [build_of_configurationError herr] at h
      cases h
  refine ⟨hnone, ?_⟩
  rw [build_new hnone] at h
  rcases restrictions_cases hnone with hres | ⟨addresses, hres⟩
  · refine ⟨"", ?_, fun addresses haddr =>
      absurd haddr (Operation.not_mem_of_restrictions_eq_nil hres addresses)⟩
    rw [hres, supplied] at h
    rw [resolved_of_no_restriction hres]
    exact (Except.ok.inj h).symm
  · rw [hres, result_supplied_cons, config_new] at h
    cases hcreate : (create (blocklistSpec config addresses) state).result with
    | error error =>
      rw [hcreate] at h
      cases h
    | ok arn =>
      rw [hcreate] at h
      refine ⟨arn, (Except.ok.inj h).symm, fun other hother => ?_⟩
      rw [(Operation.mem_iff_of_restrictions_eq hres).mp hother]
      exact ⟨hres, hcreate⟩

theorem state_new (h : ((new config).run operations).configurationError? = none)
    {addresses : List String} (hres : Operation.restrictions operations = [addresses])
    (create : Provisioner σ) (state : σ) :
    (((new config).run operations).build create state).state =
      (create (blocklistSpec config addresses) state).state := by
  rw [build_new h, hres, state_supplied_cons, config_new]

/-- **The calls of a build** without configuration errors. -/
theorem calls_new (h : ((new config).run operations).configurationError? = none)
    (create : Provisioner σ) (state : σ) :
    ((new config).run operations).calls create state =
      (Operation.restrictions operations).map fun addresses =>
        ⟨blocklistSpec config addresses, (create (blocklistSpec config addresses) state).result⟩ := by
  rw [calls, build_new h]
  rcases restrictions_cases h with hres | ⟨addresses, hres⟩
  · rw [hres]
    rfl
  · rw [hres, state_supplied_cons, config_new]
    rfl

/-- An error of a build is a configuration error, found before anyone is called, or the error of the
provisioner for the blocklist's IP set. -/
theorem build_error {create : Provisioner σ} {state : σ} {error : AclError}
    (h : (((new config).run operations).build create state).result = .error error) :
    ((new config).run operations).configurationError? = some error ∨
      ((new config).run operations).configurationError? = none ∧
        ∃ addresses, Operation.restrictions operations = [addresses] ∧
          (create (blocklistSpec config addresses) state).result = .error error := by
  cases hconf : ((new config).run operations).configurationError? with
  | some other =>
    rw [build_of_configurationError hconf] at h
    exact Or.inl (congrArg some (Except.error.inj h))
  | none =>
    rw [build_new hconf] at h
    rcases restrictions_cases hconf with hres | ⟨addresses, hres⟩
    · rw [hres] at h
      cases h
    · rw [hres, result_supplied_cons, config_new] at h
      refine Or.inr ⟨rfl, addresses, hres, ?_⟩
      cases hcreate : (create (blocklistSpec config addresses) state).result with
      | error other =>
        rw [hcreate] at h
        exact congrArg Except.error (Except.error.inj h)
      | ok arn =>
        rw [hcreate] at h
        cases h

/-- With a configuration error nobody is called. -/
theorem calls_of_configurationError {draft : Draft} {error : AclError}
    (h : draft.configurationError? = some error) (create : Provisioner σ) (state : σ) :
    draft.calls create state = [] := by
  rw [calls, build_of_configurationError h]

/-- The IP sets that wait for their creation may be kept in any order. -/
theorem build_of_perm {table : List PendingIpSet}
    (h : table.Perm ((new config).run operations).pending) (create : Provisioner σ) (state : σ) :
    { (new config).run operations with pending := table }.build create state =
      ((new config).run operations).build create state := by
  cases hconf : ((new config).run operations).configurationError? with
  | some error =>
    have hconf' : { (new config).run operations with pending := table }.configurationError? =
      some error := hconf
    rw [build_of_configurationError hconf, build_of_configurationError hconf']
    rfl
  | none =>
    have htable : table = ((new config).run operations).pending := by
      rw [pending_new] at h ⊢
      rcases restrictions_cases hconf with hres | ⟨addresses, hres⟩
      · rw [hres] at h ⊢
        exact h.eq_nil
      · rw [hres] at h ⊢
        exact List.perm_singleton.mp h
    rw [htable]

end New

end Draft

/-! ### Errors before the calls and after them -/

/-- A provisioner that fails only by refusing an IP set. -/
def Provisioner.OnlyRefuses (create : Provisioner σ) : Prop :=
  ∀ spec state error, (create spec state).result = .error error →
    ∃ reason, error = .provision reason

/-- **What a build calls.** A configuration error comes before any call; otherwise there is one call
for each blocklist that was asked for, and not more than one. No token is left over, the order of the
waiting IP sets does not matter, and so an error is a configuration error exactly if nobody was
called. -/
theorem Draft.calls_of_build (config : Config) (operations : List Operation)
    (create : Provisioner σ) (state : σ) (refuses : create.OnlyRefuses) :
    ((new config).run operations).build create state =
      (((new config).run operations).build create.logged (state, [])).forget ∧
    (∀ error, (((new config).run operations).build create state).result = .error error →
      error.isConfiguration → ((new config).run operations).calls create state = []) ∧
    ((∀ error, (((new config).run operations).build create state).result = .error error →
        ¬ error.isConfiguration) →
      (Operation.restrictions operations).length ≤ 1 ∧
      (((new config).run operations).calls create state).map (·.spec) =
        (Operation.restrictions operations).map fun addresses =>
          ⟨"BlocklistIpSet", config.scope, config.addressVersion, addresses⟩) ∧
    (∀ reference,
      (((new config).run operations).build create state).result ≠
        .error (.unresolvedIpSet reference)) ∧
    (∀ table : List PendingIpSet, table.Perm ((new config).run operations).pending →
      { (new config).run operations with pending := table }.build create state =
        ((new config).run operations).build create state) ∧
    ∀ error, (((new config).run operations).build create state).result = .error error →
      (error.isConfiguration ↔ ((new config).run operations).calls create state = []) := by
  have hafter : ∀ error, (((new config).run operations).build create state).result = .error error →
      error.isConfiguration ∧ ((new config).run operations).calls create state = [] ∨
      ((∃ reason, error = .provision reason) ∧
        ((new config).run operations).calls create state ≠ []) := by
    intro error herr
    rcases build_error herr with hconf | ⟨hconf, addresses, hres, hcreate⟩
    · exact Or.inl ⟨isConfiguration_of_configurationError hconf,
        calls_of_configurationError hconf create state⟩
    · refine Or.inr ⟨refuses _ _ _ hcreate, ?_⟩
      rw [calls_new hconf, hres]
      exact List.cons_ne_nil _ _
  refine ⟨build_logged _ create state [], ?_, ?_, ?_,
    fun table hperm => build_of_perm hperm create state, ?_⟩
  · intro error herr hconf
    rcases hafter error herr with ⟨-, hcalls⟩ | ⟨⟨reason, rfl⟩, -⟩
    · exact hcalls
    · cases hconf
  · intro hnone
    have hconf : ((new config).run operations).configurationError? = none := by
      cases hconf : ((new config).run operations).configurationError? with
      | none => rfl
      | some error =>
        refine absurd (isConfiguration_of_configurationError hconf) (hnone error ?_)
        rw [build_of_configurationError hconf]
    refine ⟨?_, ?_⟩
    · rcases restrictions_cases hconf with hres | ⟨addresses, hres⟩
      · rw [hres]
        exact Nat.zero_le _
      · rw [hres]
        exact Nat.le_refl _
    · rw [calls_new hconf, List.map_map]
      rfl
  · intro reference herr
    rcases hafter _ herr with ⟨hconf, -⟩ | ⟨⟨reason, heq⟩, -⟩
    · cases hconf
    · cases heq
  · intro error herr
    rcases hafter error herr with ⟨hconf, hcalls⟩ | ⟨⟨reason, rfl⟩, hcalls⟩
    · exact ⟨fun _ => hcalls, fun _ => hconf⟩
    · refine ⟨fun hconf => ?_, fun h => absurd h hcalls⟩
      cases hconf

theorem Register.onlyRefuses_create : Provisioner.OnlyRefuses Register.create := by
  intro spec register error h
  unfold Register.create at h
  split at h
  · exact ⟨_, (Except.error.inj h).symm⟩
  · cases h

/-- The one call for a blocklist over an empty register. -/
theorem Draft.calls_of_build_blocklist :
    Provisioner.OnlyRefuses Register.create ∧
      (((new .default).run [.ipRestriction ["192.0.2.0/24", "10.0.0.1/32"]]).calls
          Register.create []).map (·.spec) =
        [⟨"BlocklistIpSet", .cloudfront, .ipv4, ["192.0.2.0/24", "10.0.0.1/32"]⟩] := by
  refine ⟨Register.onlyRefuses_create, ?_⟩
  have hcalls := (calls_of_build .default [.ipRestriction ["192.0.2.0/24", "10.0.0.1/32"]]
    Register.create [] Register.onlyRefuses_create).2.2.1
  refine (hcalls fun error herror => ?_).2
  cases herror

end WebAcl
