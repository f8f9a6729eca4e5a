import WebAcl.Build
import WebAcl.Proofs.Asked

/-! # The calls of a provisioner

A build takes the tokens among its rules to the provisioner one by one. The calls are observed by a
provisioner that does what another one does and keeps a log (`Provisioner.logged`); the log changes
nothing else (`Draft.build_logged`). Since every blocklist brings a rule of the same name, a draft
whose rules have different names has at most one token, and creating its IP sets is at most one call
(`Draft.provision_new`). -/

namespace WebAcl

variable {σ : Type}

/-! ### Observed calls -/

/-- A call of a provisioner: what it was asked for and what it answered. -/
structure Call where
  spec : IpSetSpec
  answer : Except AclError String

/-- The provisioner with a log of its calls. -/
def Provisioner.logged (create : Provisioner σ) : Provisioner (σ × List Call) :=
  fun spec (state, calls) =>
    let outcome := create spec state
    ⟨outcome.result, (outcome.state, calls ++ [⟨spec, outcome.result⟩]), outcome.events⟩

/-- The calls of the provisioner while a draft is built. -/
def Draft.calls (draft : Draft) (create : Provisioner σ) (state : σ) : List Call :=
  (draft.build create.logged (state, [])).state.2

/-- The outcome without the log. -/
def Outcome.forget {α : Type} (outcome : Outcome (σ × List Call) α) : Outcome σ α :=
  ⟨outcome.result, outcome.state.1, outcome.events⟩

namespace Supply

/-- The supply without the log. -/
def forget (supply : Supply (σ × List Call)) : Supply σ :=
  ⟨supply.pending, supply.state.1, supply.events⟩

theorem resolve_logged (create : Provisioner σ) (token : String) (supply : Supply (σ × List Call)) :
    resolve create token supply.forget =
      ⟨(resolve create.logged token supply).left, (resolve create.logged token supply).ended,
        (resolve create.logged token supply).state.forget⟩ := by
  obtain ⟨pending, ⟨state, calls⟩, events⟩ := supply
  simp only [resolve, forget]
  cases pending.find? (·.token = token) with
  | none => rfl
  | some wanted =>
    simp only [Provisioner.logged]
    cases (create wanted.spec state).result <;> rfl

theorem visit_logged (create : Provisioner σ) (statement : Statement)
    (supply : Supply (σ × List Call)) :
    statement.visit (resolve create) supply.forget =
      ⟨(statement.visit (resolve create.logged) supply).left,
        (statement.visit (resolve create.logged) supply).ended,
        (statement.visit (resolve create.logged) supply).state.forget⟩ := by
  rw [Statement.visit_eq, Statement.visit_eq]
  cases statement.reference? with
  | none => rfl
  | some arn => simp only [resolve_logged, Visit.map]

theorem resolveAll_logged (create : Provisioner σ) (rules : List RankedRule)
    (supply : Supply (σ × List Call)) :
    resolveAll create rules supply.forget =
      ((resolveAll create.logged rules supply).1,
        (resolveAll create.logged rules supply).2.forget) := by
  induction rules generalizing supply with
  | nil => rfl
  | cons ranked rules ih =>
    simp only [resolveAll, visit_logged]
    cases (ranked.rule.statement.visit (resolve create.logged) supply).ended with
    | error error => rfl
    | ok done =>
      simp only [ih]
      rcases resolveAll create.logged rules
        (ranked.rule.statement.visit (resolve create.logged) supply).state with ⟨_ | rules, supply⟩
      · rfl
      · rfl

end Supply

namespace Draft

variable (draft : Draft) (create : Provisioner σ) (state : σ)

theorem provision_logged (calls : List Call) :
    draft.provision create state = (draft.provision create.logged (state, calls)).forget := by
  have h := Supply.resolveAll_logged create (RankedRule.rank draft.rules)
    ⟨draft.pending, (state, calls), []⟩
  have hstart : (⟨draft.pending, state, []⟩ : Supply σ) =
    Supply.forget ⟨draft.pending, (state, calls), []⟩ := rfl
  unfold provision
  rw [hstart, h]
  rcases Supply.resolveAll create.logged (RankedRule.rank draft.rules)
    ⟨draft.pending, (state, calls), []⟩ with ⟨_ | rules, supply⟩
  · rfl
  · obtain ⟨_ | ⟨wanted, pending⟩, after, events⟩ := supply
    · rfl
    · rfl

/-- **The log changes nothing**: result, state and events are those without it. -/
theorem build_logged (calls : List Call) :
    draft.build create state = (draft.build create.logged (state, calls)).forget := by
  unfold build
  cases draft.configurationError? with
  | some error => rfl
  | none =>
    simp only
    rw [provision_logged draft create state calls]
    rfl

end Draft

/-! ### At most one token -/

namespace RankedRule

/-- The ranked rule with the reference of its statement, if it has one, replaced. -/
def withReference (arn : String) (ranked : RankedRule) : RankedRule :=
  { ranked with rule := ranked.rule.withReference arn }

theorem withReference_of_none (arn : String) {ranked : RankedRule}
    (h : ranked.rule.statement.reference? = none) : ranked.withReference arn = ranked := by
  rw [withReference, Rule.withReference_of_none arn h]

theorem map_withReference_of_none (arn : String) {rules : List RankedRule}
    (h : ∀ ranked ∈ rules, ranked.rule.statement.reference? = none) :
    rules.map (·.withReference arn) = rules :=
  (List.map_congr_left fun ranked hranked => withReference_of_none arn (h ranked hranked)).trans
    (List.map_id _)

theorem map_withReference_rank (arn : String) (rules : List Rule) :
    (rank rules).map (·.withReference arn) = rank (rules.map (·.withReference arn)) := by
  rw [rank, rank, rankFrom, rankFrom, List.map_map, List.zipIdx_map, List.map_map]
  rfl

end RankedRule

namespace Supply

variable (create : Provisioner σ)

/-- Rules without references are left as they are, and nobody is called. -/
theorem resolveAll_plain {rules : List RankedRule}
    (h : ∀ ranked ∈ rules, ranked.rule.statement.reference? = none) (supply : Supply σ) :
    resolveAll create rules supply = (.ok rules, supply) := by
  induction rules with
  | nil => rfl
  | cons ranked rules ih =>
    obtain ⟨hhead, htail⟩ := List.forall_mem_cons.mp h
    simp only [resolveAll, Statement.visit_eq, hhead, ih htail]

/-- The one IP set that is asked for is created, and its reference takes the place of the token. -/
theorem resolveAll_single {rules : List RankedRule} {token : String}
    (h : rules.filterMap (·.rule.statement.reference?) = [token]) (spec : IpSetSpec) (state : σ)
    (events : List Event) :
    resolveAll create rules ⟨[⟨token, spec⟩], state, events⟩ =
      ((create spec state).result.map fun arn => rules.map (·.withReference arn),
        ⟨[], (create spec state).state, events ++ (create spec state).events⟩) := by
  induction rules with
  | nil => cases h
  | cons ranked rules ih =>
    cases hhead : ranked.rule.statement.reference? with
    | none =>
      simp only [List.filterMap_cons, hhead] at h
      simp only [resolveAll, Statement.visit_eq, hhead, ih h, List.map_cons,
        RankedRule.withReference_of_none _ hhead]
      cases (create spec state).result <;> rfl
    | some arn =>
      simp only [List.filterMap_cons, hhead] at h
      obtain ⟨rfl, htail⟩ := List.cons.inj h
      have htail := List.filterMap_eq_nil_iff.mp htail
      have hplain : ∀ other, rules.map (·.withReference other) = rules := fun other =>
        RankedRule.map_withReference_of_none other htail
      have hfound : [(⟨arn, spec⟩ : PendingIpSet)].find? (·.token = arn) = some ⟨arn, spec⟩ := by
        simp
      have hrest : [(⟨arn, spec⟩ : PendingIpSet)].filter (·.token ≠ arn) = [] := by simp
      simp only [resolveAll, Statement.visit_eq, hhead, resolve, hfound, hrest, List.map_cons,
        hplain]
      cases (create spec state).result with
      | error error => rfl
      | ok reference =>
        simp only [Visit.map, resolveAll_plain create htail]
        rfl

end Supply

namespace Draft

/-- The list of a draft with one reference in place of all tokens. -/
def resolved (draft : Draft) (arn : String) : Acl :=
  draft.aclOf (RankedRule.rank (draft.rules.map (·.withReference arn)))

theorem map_rule_resolved (draft : Draft) (arn : String) :
    (draft.resolved arn).rules.map (·.rule) = draft.rules.map (·.withReference arn) :=
  RankedRule.map_rule_rank _

theorem ruleNames_resolved (draft : Draft) (arn : String) :
    (draft.resolved arn).ruleNames = draft.rules.map (·.name) := by
  have h := congrArg (List.map fun rule : Rule => rule.name) (map_rule_resolved draft arn)
  rw [List.map_map, List.map_map] at h
  exact h

/-- A rule of the list stands where its rule stands in the draft. -/
theorem getElem?_resolved {draft : Draft} {arn : String} {i : Nat} {ranked : RankedRule}
    (h : (draft.resolved arn).rules[i]? = some ranked) :
    ∃ rule, draft.rules[i]? = some rule ∧ ranked = ⟨UInt32.ofNat i, rule.withReference arn⟩ := by
  obtain ⟨changed, hchanged, rfl⟩ := RankedRule.getElem?_rank_eq_some.mp h
  rw [List.getElem?_map, Option.map_eq_some_iff] at hchanged
  obtain ⟨rule, hrule, rfl⟩ := hchanged
  exact ⟨rule, hrule, rfl⟩

theorem mem_resolved {draft : Draft} {arn : String} {ranked : RankedRule}
    (h : ranked ∈ (draft.resolved arn).rules) :
    ∃ rule ∈ draft.rules, ranked.rule = rule.withReference arn := by
  obtain ⟨rule, hrule, heq⟩ := List.mem_map.mp (RankedRule.rule_mem_of_mem_rank h)
  exact ⟨rule, hrule, heq.symm⟩

/-- What becomes of a draft without defects that asks for these blocklists: nobody is called if
there is none, and there is not more than one. -/
def supplied (draft : Draft) (create : Provisioner σ) (state : σ) :
    List (List String) → Outcome σ Acl
  | [] => ⟨.ok (draft.aclOf (RankedRule.rank draft.rules)), state, [draft.completed]⟩
  | addresses :: _ =>
    let outcome := create (blocklistSpec draft.config addresses) state
    match outcome.result with
    | .error error => ⟨.error error, outcome.state, outcome.events⟩
    | .ok arn => ⟨.ok (draft.resolved arn), outcome.state, outcome.events ++ [draft.completed]⟩

theorem state_supplied_cons (draft : Draft) (create : Provisioner σ) (state : σ)
    (addresses : List String) (others : List (List String)) :
    (draft.supplied create state (addresses :: others)).state =
      (create (blocklistSpec draft.config addresses) state).state := by
  simp only [supplied]
  cases (create (blocklistSpec draft.config addresses) state).result <;> rfl

theorem result_supplied_cons (draft : Draft) (create : Provisioner σ) (state : σ)
    (addresses : List String) (others : List (List String)) :
    (draft.supplied create state (addresses :: others)).result =
      (create (blocklistSpec draft.config addresses) state).result.map draft.resolved := by
  simp only [supplied]
  cases (create (blocklistSpec draft.config addresses) state).result <;> rfl

theorem provision_plain {draft : Draft} (create : Provisioner σ) (state : σ)
    (hpending : draft.pending = [])
    (hrefs : draft.rules.filterMap (·.statement.reference?) = []) :
    draft.provision create state = draft.supplied create state [] := by
  rw [← RankedRule.map_rule_rank draft.rules, List.filterMap_map] at hrefs
  have hall := Supply.resolveAll_plain create (List.filterMap_eq_nil_iff.mp hrefs)
    ⟨draft.pending, state, []⟩
  rw [provision, hall, hpending]
  rfl

theorem provision_single {draft : Draft} (create : Provisioner σ) (state : σ) {token : String}
    {addresses : List String}
    (hpending : draft.pending = [⟨token, blocklistSpec draft.config addresses⟩])
    (hrefs : draft.rules.filterMap (·.statement.reference?) = [token]) :
    draft.provision create state = draft.supplied create state [addresses] := by
  rw [← RankedRule.map_rule_rank draft.rules, List.filterMap_map] at hrefs
  have hall := Supply.resolveAll_single create hrefs (blocklistSpec draft.config addresses) state []
  rw [provision, hpending, hall]
  simp only [supplied, resolved, ← RankedRule.map_withReference_rank]
  cases (create (blocklistSpec draft.config addresses) state).result <;> rfl

section New

variable (config : Config) (operations : List Operation) (create : Provisioner σ) (state : σ)

theorem map_name_rules_new (arn : String) :
    ((new config).run operations).rules.map (·.name) =
      (Operation.asked config arn operations).map (·.name) := by
  rw [← map_withReference_rules_new config operations arn, List.map_map]
  rfl

/-- **Creating the IP sets** of a draft whose rules have different names. -/
theorem provision_new (h : (((new config).run operations).rules.map (·.name)).Nodup) :
    ((new config).run operations).provision create state =
      ((new config).run operations).supplied create state (Operation.restrictions operations) := by
  have hpending := pending_new config operations
  have hrefs := references_new config operations
  rw [hpending] at hrefs
  rw [map_name_rules_new config operations ""] at h
  rcases Operation.restrictions_cases_of_nodup h with hres | ⟨addresses, hres⟩
  · rw [hres] at hpending hrefs ⊢
    exact provision_plain create state hpending hrefs
  · rw [hres] at hpending hrefs ⊢
    refine provision_single create state ?_ hrefs
    rw [hpending, config_new]
    rfl

end New

end Draft

end WebAcl
