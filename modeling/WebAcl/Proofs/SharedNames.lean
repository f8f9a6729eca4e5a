import WebAcl.Proofs.Building

/-! # Drafts in which rules share a name

Here a draft may hold any rules, not only those that operations make. An error of its build has one
of three origins: the checks, a token that stands for no IP set, or a refusal of the provisioner, which
is then the last thing that happened (`Draft.build_error_origin`). So a build that fails over shared
names without a call has found them itself (`Draft.unasked_duplicateRuleName_iff`), and what it reports
are the repeated names of the rules in the order of priority. -/

namespace WebAcl

variable {σ : Type}

namespace Provisioner

/-- The provisioner refuses something with this error and is left in this state. -/
def Refuses (create : Provisioner σ) (error : AclError) (after : σ) : Prop :=
  ∃ spec before, (create spec before).result = .error error ∧ (create spec before).state = after

/-- A provisioner that does not complain about the names of rules, of which it is not told. -/
def LeavesNames (create : Provisioner σ) : Prop :=
  ∀ acl names after, ¬ create.Refuses (.duplicateRuleName acl names) after

theorem OnlyRefuses.eq_provision {create : Provisioner σ} {error : AclError} {after : σ}
    (h : create.OnlyRefuses) (hrefuses : create.Refuses error after) :
    ∃ reason, error = .provision reason := by
  obtain ⟨spec, before, hresult, -⟩ := hrefuses
  exact h spec before error hresult

theorem OnlyRefuses.leavesNames {create : Provisioner σ} (h : create.OnlyRefuses) :
    create.LeavesNames := by
  intro acl names after hrefuses
  obtain ⟨reason, heq⟩ := h.eq_provision hrefuses
  cases heq

/-- A call that is refused is the last one in the log. -/
theorem calls_ne_nil_of_refuses {create : Provisioner σ} {error : AclError} {after : σ × List Call}
    (h : create.logged.Refuses error after) : after.2 ≠ [] := by
  obtain ⟨spec, before, -, rfl⟩ := h
  exact List.append_ne_nil_of_right_ne_nil _ (List.cons_ne_nil _ _)

end Provisioner

/-! ### Where an error comes from -/

namespace Supply

variable {create : Provisioner σ} {error : AclError}

theorem resolve_error {token : String} {supply : Supply σ}
    (h : (resolve create token supply).ended = .error error) :
    error = .unresolvedIpSet token ∨
      create.Refuses error (resolve create token supply).state.state := by
  unfold resolve at h ⊢
  cases hfind : supply.pending.find? (·.token = token) with
  | none =>
    rw [hfind] at h
    exact Or.inl (Except.error.inj h).symm
  | some wanted =>
    rw [hfind] at h
    simp only at h ⊢
    cases hcreate : (create wanted.spec supply.state).result with
    | ok reference =>
      rw [hcreate] at h
      cases h
    | error other =>
      rw [hcreate] at h
      obtain rfl : other = error := Except.error.inj h
      exact Or.inr ⟨wanted.spec, supply.state, hcreate, rfl⟩

theorem visit_error {statement : Statement} {supply : Supply σ}
    (h : (statement.visit (resolve create) supply).ended = .error error) :
    (∃ token, error = .unresolvedIpSet token) ∨
      create.Refuses error (statement.visit (resolve create) supply).state.state := by
  rw [Statement.visit_eq] at h ⊢
  cases href : statement.reference? with
  | none =>
    rw [href] at h
    cases h
  | some token =>
    rw [href] at h
    exact (resolve_error h).imp_left fun heq => ⟨token, heq⟩

theorem resolveAll_error {rules : List RankedRule} {supply : Supply σ}
    (h : (resolveAll create rules supply).1 = .error error) :
    (∃ token, error = .unresolvedIpSet token) ∨
      create.Refuses error (resolveAll create rules supply).2.state := by
  induction rules generalizing supply with
  | nil => cases h
  | cons ranked rules ih =>
    rw [resolveAll] at h ⊢
    cases hended : (ranked.rule.statement.visit (resolve create) supply).ended with
    | error other =>
      simp only [hended] at h ⊢
      obtain rfl : other = error := Except.error.inj h
      exact visit_error hended
    | ok done =>
      simp only [hended] at h ⊢
      have hrest := @ih (ranked.rule.statement.visit (resolve create) supply).state
      rcases hall : resolveAll create rules
        (ranked.rule.statement.visit (resolve create) supply).state with ⟨other | rest, after⟩
      · rw [hall] at h hrest
        exact hrest h
      · rw [hall] at h
        cases h

end Supply

namespace Draft

variable {draft : Draft} {create : Provisioner σ} {state : σ} {error : AclError}

theorem provision_error (h : (draft.provision create state).result = .error error) :
    (∃ token, error = .unresolvedIpSet token) ∨
      create.Refuses error (draft.provision create state).state := by
  have hresolve := @Supply.resolveAll_error σ create error (RankedRule.rank draft.rules)
    ⟨draft.pending, state, []⟩
  unfold provision at h ⊢
  rcases hall : Supply.resolveAll create (RankedRule.rank draft.rules)
    ⟨draft.pending, state, []⟩ with ⟨other | rules, supply⟩
  · rw [hall] at h hresolve
    obtain rfl : other = error := Except.error.inj h
    exact hresolve rfl
  · rw [hall] at h
    simp only at h
    -- all references are resolved, so only a token that is left over can be at fault
    cases hleft : supply.pending with
    | nil =>
      rw [hleft] at h
      cases h
    | cons wanted pending =>
      rw [hleft] at h
      exact Or.inl ⟨wanted.token, (Except.error.inj h).symm⟩

/-- **Where an error comes from**: the checks, a token, or the provisioner's last call. -/
theorem build_error_origin (h : (draft.build create state).result = .error error) :
    draft.configurationError? = some error ∨ (∃ token, error = .unresolvedIpSet token) ∨
      create.Refuses error (draft.build create state).state := by
  cases hconf : draft.configurationError? with
  | some other =>
    rw [build_of_configurationError hconf] at h
    exact Or.inl (congrArg some (Except.error.inj h))
  | none =>
    unfold build at h ⊢
    rw [hconf] at h ⊢
    exact Or.inr (provision_error h)

/-! ### Errors over shared names -/

/-- The names of the rules in the order of priority. -/
def rankedNames (draft : Draft) : List String :=
  (RankedRule.rank (draft.countRules ++ draft.blockRules)).map (·.rule.name)

theorem rankedNames_eq (draft : Draft) : draft.rankedNames = draft.rules.map (·.name) := by
  have h := congrArg (List.map (·.name)) (RankedRule.map_rule_rank draft.rules)
  rw [List.map_map] at h
  exact h

theorem defect?_ne_duplicateRuleName {rule : Rule} {acl : String} {names : List String} :
    draft.defect? rule ≠ some (.duplicateRuleName acl names) := by
  unfold defect?
  split
  · exact nofun
  · split
    · split <;> exact nofun
    · exact nofun

/-- The checks report the repeated names as soon as there are any. -/
theorem configurationError?_eq_duplicateRuleName {acl : String} {names : List String} :
    draft.configurationError? = some (.duplicateRuleName acl names) ↔
      acl = draft.config.name ∧ names = repeatedNames draft.rankedNames ∧
        repeatedNames draft.rankedNames ≠ [] := by
  rw [rankedNames_eq]
  by_cases hnodup : (draft.rules.map (·.name)).Nodup
  · rw [repeatedNames_eq_nil.mpr hnodup]
    refine ⟨fun h => ?_, fun h => absurd rfl h.2.2⟩
    by_cases hnil : draft.rules = []
    · rw [configurationError?_of_nil hnil] at h
      cases h
    · rw [configurationError?_of_nodup hnil hnodup] at h
      obtain ⟨rule, -, hrule⟩ := List.exists_of_findSome?_eq_some h
      exact absurd hrule defect?_ne_duplicateRuleName
  · rw [configurationError?_of_not_nodup hnodup]
    have hne : repeatedNames (draft.rules.map (·.name)) ≠ [] := fun h =>
      hnodup (repeatedNames_eq_nil.mp h)
    constructor
    · rintro ⟨⟩
      exact ⟨rfl, rfl, hne⟩
    · rintro ⟨rfl, rfl, -⟩
      rfl

/-- A build that fails over shared names without a call has found them itself. -/
theorem unasked_duplicateRuleName_iff (draft : Draft) (create : Provisioner σ) (state : σ)
    (acl : String) (names : List String) :
    (draft.build create state).result = .error (.duplicateRuleName acl names) ∧
        draft.calls create state = [] ↔
      acl = draft.config.name ∧ names = repeatedNames draft.rankedNames ∧
        repeatedNames draft.rankedNames ≠ [] := by
  rw [← configurationError?_eq_duplicateRuleName]
  constructor
  · rintro ⟨hresult, hcalls⟩
    rw [build_logged draft create state []] at hresult
    have hlogged : (draft.build create.logged (state, [])).result =
      .error (.duplicateRuleName acl names) := hresult
    rcases build_error_origin hlogged with hconf | ⟨token, heq⟩ | hrefuses
    · exact hconf
    · cases heq
    · exact absurd hcalls (Provisioner.calls_ne_nil_of_refuses hrefuses)
  · intro hconf
    rw [build_of_configurationError hconf]
    exact ⟨rfl, calls_of_configurationError hconf create state⟩

/-- With a provisioner that does not complain about names, only the build does. -/
theorem duplicateRuleName_iff (leaves : create.LeavesNames) (draft : Draft) (state : σ)
    (acl : String) (names : List String) :
    (draft.build create state).result = .error (.duplicateRuleName acl names) ↔
      acl = draft.config.name ∧ names = repeatedNames draft.rankedNames ∧
        repeatedNames draft.rankedNames ≠ [] := by
  rw [← configurationError?_eq_duplicateRuleName]
  constructor
  · intro hresult
    rcases build_error_origin hresult with hconf | ⟨token, heq⟩ | hrefuses
    · exact hconf
    · cases heq
    · exact absurd hrefuses (leaves acl names _)
  · intro hconf
    rw [build_of_configurationError hconf]

/-- **Builds over shared names.** Every draft has a list of repeated names, which is empty exactly if
no name occurs twice. Where it is not empty the build fails with this list, before it calls anyone and
whatever else its rules are; where it is empty the build does not complain about names. -/
theorem build_repeats (draft : Draft) (create : Provisioner σ) (state : σ) :
    ∃ repeated, Repeats draft.rankedNames repeated ∧
      (∀ acl names, (draft.build create state).result = .error (.duplicateRuleName acl names) ∧
          draft.calls create state = [] ↔
        acl = draft.config.name ∧ names = repeated ∧ repeated ≠ []) ∧
      (create.LeavesNames → ∀ acl names,
        (draft.build create state).result = .error (.duplicateRuleName acl names) ↔
          acl = draft.config.name ∧ names = repeated ∧ repeated ≠ []) :=
  ⟨repeatedNames draft.rankedNames, repeats_repeatedNames _,
    unasked_duplicateRuleName_iff draft create state,
    fun leaves => duplicateRuleName_iff leaves draft state⟩

/-- One name stands three times in both queues, another one twice, and one of the rules has no limit. -/
theorem build_repeats_of_two_names : ∃ draft : Draft,
    draft = (new .default).run [.throttle "a" 5 .absent .ip (.block "K"),
      .throttle "b" 5 .absent .ip .count, .throttle "a" 0 .absent .ip .count,
      .throttle "c" 5 .absent .ip .count, .throttle "b" 5 .absent .ip (.block "K"),
      .throttle "a" 5 .absent .ip .count] ∧
    draft.rankedNames = ["b", "a", "c", "a", "a", "b"] ∧
    Provisioner.LeavesNames Register.create ∧
    (draft.build Register.create []).result = .error (.duplicateRuleName "WebACL" ["a", "b"]) ∧
    draft.calls Register.create [] = [] ∧ Repeats draft.rankedNames ["a", "b"] := by
  refine ⟨_, rfl, rfl, Register.onlyRefuses_create.leavesNames, ?_⟩
  generalize hdraft : (new .default).run _ = draft
  have hconf : draft.configurationError? = some (.duplicateRuleName "WebACL" ["a", "b"]) := by
    rw [← hdraft]
    decide +kernel
  have hresult : (draft.build Register.create []).result =
      .error (.duplicateRuleName "WebACL" ["a", "b"]) := by
    rw [build_of_configurationError hconf]
  obtain ⟨repeated, hrepeats, hunasked, hleaves⟩ := build_repeats draft Register.create []
  obtain ⟨hacl, rfl, hne⟩ :=
    (hleaves Register.onlyRefuses_create.leavesNames _ _).mp hresult
  exact ⟨hresult, ((hunasked _ _).mpr ⟨hacl, rfl, hne⟩).2, hrepeats⟩

end Draft

end WebAcl
