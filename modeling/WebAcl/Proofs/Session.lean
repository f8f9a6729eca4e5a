import WebAcl.Proofs.Building
import Mathlib.Data.List.Nodup

/-! # Sessions over a template

One register serves many uses: IP sets are recorded directly, and lists are built from drafts of their
own. A use that fails leaves the register as it was, one that succeeds adds at most one set under a
new identifier (`Session.perform_cases`), so the identifiers stay distinct through every session. A
list that was built keeps its references: each names exactly one recorded set, the one of its own
blocklist. All blocklists bear one identifier, so no session builds two of them. -/

namespace WebAcl

/-- The references of a list, at any depth, in the order of priority. -/
def Acl.references (acl : Acl) : List String :=
  acl.rules.flatMap fun ranked => ranked.rule.statement.references

theorem Acl.mem_references {acl : Acl} {arn : String} : arn ∈ acl.references ↔
    ∃ ranked ∈ acl.rules, .ipSet arn ∈ ranked.rule.statement.parts := by
  rw [references, List.mem_flatMap]
  refine exists_congr fun ranked => and_congr_right fun _ => ?_
  rw [Statement.references_eq, Option.mem_toList, Statement.ipSet_mem_parts]

/-- A list with one reference in place of all tokens has one reference for each. -/
theorem Draft.references_resolved (draft : Draft) (arn : String) :
    (draft.resolved arn).references =
      (draft.rules.filterMap (·.statement.reference?)).map fun _ => arn := by
  have hrules : (draft.resolved arn).references =
      ((draft.resolved arn).rules.map (·.rule)).flatMap (·.statement.references) := by
    rw [Acl.references, List.flatMap_map]
  rw [hrules, map_rule_resolved, List.flatMap_map, List.map_filterMap, List.filterMap_eq_flatMap_toList]
  refine congrFun (congrArg List.flatMap (funext fun rule => ?_)) _
  rw [Statement.references_eq, Rule.withReference, Statement.reference?_withReference]

namespace Session

/-! ### Uses of a register -/

/-- A use of a register: an IP set is recorded, or the draft of some operations is built. -/
inductive Step where
  | record (spec : IpSetSpec)
  | build (config : Config) (operations : List Operation)

/-- What a use gives: the reference to a set, or a list. -/
inductive Product where
  | reference (arn : String)
  | list (acl : Acl)

/-- The outcome of a use of a register. -/
def Step.perform : Step → Register → Outcome Register Product
  | .record spec, register =>
    let outcome := Register.create spec register
    ⟨outcome.result.map .reference, outcome.state, outcome.events⟩
  | .build config operations, register =>
    let outcome := ((Draft.new config).run operations).build Register.create register
    ⟨outcome.result.map .list, outcome.state, outcome.events⟩

/-- The register after these uses, one after the other. -/
def run (start : Register) (steps : List Step) : Register :=
  steps.foldl (fun register step => (step.perform register).state) start

theorem run_cons (start : Register) (step : Step) (steps : List Step) :
    run start (step :: steps) = run (step.perform start).state steps := rfl

theorem run_append (start : Register) (first second : List Step) :
    run start (first ++ second) = run (run start first) second :=
  List.foldl_append

/-! ### One use -/

/-- A register takes a set under a new identifier and refuses any other. -/
theorem create_cases (spec : IpSetSpec) (register : Register) :
    (∃ error, (Register.create spec register).result = .error error ∧
      (Register.create spec register).state = register) ∨
    (Register.create spec register).result = .ok (Register.reference spec.logicalId) ∧
      (Register.create spec register).state = register ++ [spec] ∧
      spec.logicalId ∉ register.map (·.logicalId) := by
  unfold Register.create
  split_ifs with h
  · exact Or.inl ⟨_, rfl, rfl⟩
  · refine Or.inr ⟨rfl, rfl, fun hmem => h ?_⟩
    obtain ⟨other, hother, heq⟩ := List.mem_map.mp hmem
    exact List.any_eq_true.mpr ⟨other, hother, by simpa using heq⟩

/-- Either a draft is not built and the register stays as it was, or it is built without a blocklist
and the register stays as it was, or it is built with one and its IP set is recorded. -/
theorem build_cases (config : Config) (operations : List Operation) (register : Register) :
    (∃ error, (((Draft.new config).run operations).build Register.create register).result =
        .error error ∧
      (((Draft.new config).run operations).build Register.create register).state = register) ∨
    ∃ acl, (((Draft.new config).run operations).build Register.create register).result = .ok acl ∧
      ((∀ addresses, .ipRestriction addresses ∉ operations) ∧ acl.references = [] ∧
        (((Draft.new config).run operations).build Register.create register).state = register ∨
      ∃ addresses, .ipRestriction addresses ∈ operations ∧
        acl.references = [Register.reference "BlocklistIpSet"] ∧
        (((Draft.new config).run operations).build Register.create register).state =
          register ++ [Draft.blocklistSpec config addresses] ∧
        "BlocklistIpSet" ∉ register.map (·.logicalId)) := by
  cases hbuild : (((Draft.new config).run operations).build Register.create register).result with
  | error error =>
    refine Or.inl ⟨error, rfl, ?_⟩
    rcases Draft.build_error hbuild with hconf | ⟨hconf, addresses, hres, hcreate⟩
    · rw [Draft.build_of_configurationError hconf]
    · rw [Draft.state_new hconf hres]
      rcases create_cases (Draft.blocklistSpec config addresses) register with
        ⟨-, -, hsame⟩ | ⟨hok, -⟩
      · exact hsame
      · rw [hok] at hcreate
        cases hcreate
  | ok acl =>
    refine Or.inr ⟨acl, rfl, ?_⟩
    obtain ⟨hconf, arn, rfl, harn⟩ := Draft.build_ok hbuild
    rw [Draft.references_resolved, Draft.references_new, Draft.pending_new]
    rcases Draft.restrictions_cases hconf with hres | ⟨addresses, hres⟩
    · refine Or.inl ⟨Operation.not_mem_of_restrictions_eq_nil hres, ?_, ?_⟩
      · rw [hres]
        rfl
      · rw [Draft.build_new hconf, hres]
        rfl
    · have haddr := (Operation.mem_iff_of_restrictions_eq hres).mpr rfl
      have hcreate := (harn addresses haddr).2
      rcases create_cases (Draft.blocklistSpec config addresses) register with
        ⟨error, herror, -⟩ | ⟨hok, hadded, hfresh⟩
      · rw [herror] at hcreate
        cases hcreate
      · rw [hok] at hcreate
        refine Or.inr ⟨addresses, haddr, ?_, ?_, hfresh⟩
        · rw [hres, ← Except.ok.inj hcreate]
          rfl
        · rw [Draft.state_new hconf hres, hadded]

/-- **One use** leaves the register as it was, or it succeeds and adds one set under a new
identifier. -/
theorem perform_cases (step : Step) (register : Register) :
    (step.perform register).state = register ∨
    ∃ product spec, (step.perform register).result = .ok product ∧
      (step.perform register).state = register ++ [spec] ∧
      spec.logicalId ∉ register.map (·.logicalId) := by
  cases step with
  | record spec =>
    rcases create_cases spec register with ⟨error, -, hsame⟩ | ⟨hok, hadded, hfresh⟩
    · exact Or.inl hsame
    · refine Or.inr ⟨.reference (Register.reference spec.logicalId), spec, ?_, hadded, hfresh⟩
      rw [Step.perform, hok]
      rfl
  | build config operations =>
    rcases build_cases config operations register with ⟨error, -, hsame⟩ | ⟨acl, hok, hcases⟩
    · exact Or.inl hsame
    · rcases hcases with ⟨-, -, hsame⟩ | ⟨addresses, -, -, hadded, hfresh⟩
      · exact Or.inl hsame
      · refine Or.inr ⟨.list acl, Draft.blocklistSpec config addresses, ?_, hadded, hfresh⟩
        rw [Step.perform, hok]
        rfl

/-- A list that was built has the reference of the set that its build recorded, or none. -/
theorem list_cases {config : Config} {operations : List Operation} {register : Register} {acl : Acl}
    (h : (Step.perform (.build config operations) register).result = .ok (.list acl)) :
    (∀ addresses, .ipRestriction addresses ∉ operations) ∧ acl.references = [] ∧
      (Step.perform (.build config operations) register).state = register ∨
    ∃ addresses, .ipRestriction addresses ∈ operations ∧
      acl.references = [Register.reference "BlocklistIpSet"] ∧
      (Step.perform (.build config operations) register).state =
        register ++ [Draft.blocklistSpec config addresses] ∧
      "BlocklistIpSet" ∉ register.map (·.logicalId) := by
  rcases build_cases config operations register with ⟨error, herror, -⟩ | ⟨other, hok, hcases⟩
  · rw [Step.perform, herror] at h
    cases h
  · rw [Step.perform, hok] at h
    cases h
    exact hcases

/-! ### Many uses -/

theorem prefix_perform (step : Step) (register : Register) :
    register <+: (step.perform register).state := by
  rcases perform_cases step register with hsame | ⟨product, spec, -, hadded, -⟩
  · exact ⟨[], (List.append_nil _).trans hsame.symm⟩
  · rw [hadded]
    exact List.prefix_append _ _

/-- Nothing that was recorded is lost. -/
theorem prefix_run (start : Register) (steps : List Step) : start <+: run start steps := by
  induction steps generalizing start with
  | nil => exact List.prefix_refl _
  | cons step steps ih =>
    rw [run_cons]
    exact (prefix_perform step start).trans (ih _)

/-- A set that was recorded is there ever after. -/
theorem mem_run_of_added {before : List Step} {step : Step} {spec : IpSetSpec}
    (h : (step.perform (run [] before)).state = run [] before ++ [spec]) (after : List Step) :
    spec ∈ run [] (before ++ step :: after) := by
  rw [run_append, run_cons, h]
  refine (prefix_run _ after).subset ?_
  exact List.mem_append_right _ (List.mem_singleton.mpr rfl)

theorem nodup_perform {register : Register} (h : (register.map (·.logicalId)).Nodup)
    (step : Step) : ((step.perform register).state.map (·.logicalId)).Nodup := by
  rcases perform_cases step register with hsame | ⟨product, spec, -, hadded, hfresh⟩
  · rw [hsame]
    exact h
  · rw [hadded, List.map_append, List.map_singleton, ← List.concat_eq_append, List.nodup_concat]
    exact ⟨hfresh, h⟩

/-- Identifiers stay distinct. -/
theorem nodup_run {start : Register} (h : (start.map (·.logicalId)).Nodup) (steps : List Step) :
    ((run start steps).map (·.logicalId)).Nodup := by
  induction steps generalizing start with
  | nil => exact h
  | cons step steps ih => exact ih (nodup_perform h step)

/-- Where identifiers differ, a reference names one set. -/
theorem filter_reference {register : Register} (h : (register.map (·.logicalId)).Nodup)
    {spec : IpSetSpec} (hmem : spec ∈ register) :
    register.filter (fun other =>
      Register.reference other.logicalId = Register.reference spec.logicalId) = [spec] := by
  induction register with
  | nil => cases hmem
  | cons head register ih =>
    rw [List.map_cons, List.nodup_cons] at h
    obtain ⟨hfresh, hnodup⟩ := h
    rcases List.mem_cons.mp hmem with rfl | hlater
    · rw [List.filter_cons_of_pos (by simp), List.filter_eq_nil_iff.mpr]
      intro other hother heq
      refine hfresh (List.mem_map.mpr ⟨other, hother, ?_⟩)
      simpa using heq
    · rw [List.filter_cons_of_neg, ih hnodup hlater]
      intro heq
      refine hfresh (List.mem_map.mpr ⟨spec, hlater, ?_⟩)
      simpa using Eq.symm (of_decide_eq_true heq)

/-! ### The whole session -/

/-- **A sound session**: uses, one after the other, of a register that was empty. -/
structure Sound (steps : List Step) : Prop where
  distinct : ((run [] steps).map (·.logicalId)).Nodup
  refused : ∀ before step after error, steps = before ++ step :: after →
    (step.perform (run [] before)).result = .error error →
    run [] (before ++ [step]) = run [] before
  added : ∀ before step after product, steps = before ++ step :: after →
    (step.perform (run [] before)).result = .ok product →
    ∃ added, run [] (before ++ [step]) = run [] before ++ added
  /-- A reference of a list that was built names one set of the register, the one of its draft. -/
  resolved : ∀ before config operations after acl ranked arn,
    steps = before ++ .build config operations :: after →
    (Step.perform (.build config operations) (run [] before)).result = .ok (.list acl) →
    ranked ∈ acl.rules → .ipSet arn ∈ ranked.rule.statement.parts →
    ∃ spec, arn = Register.reference spec.logicalId ∧
      (run [] steps).filter (fun other => Register.reference other.logicalId = arn) = [spec] ∧
      spec.scope = config.scope ∧ spec.addressVersion = config.addressVersion ∧
      .ipRestriction spec.addresses ∈ operations
  /-- Of two drafts with a blocklist one is not built. -/
  once : ∀ before first earlier between second later after firstAcl secondAcl,
    steps = before ++ .build first earlier :: between ++ .build second later :: after →
    (∃ addresses, .ipRestriction addresses ∈ earlier) →
    (∃ addresses, .ipRestriction addresses ∈ later) →
    (Step.perform (.build first earlier) (run [] before)).result = .ok (.list firstAcl) →
    (Step.perform (.build second later)
      (run [] (before ++ .build first earlier :: between))).result ≠ .ok (.list secondAcl)
  /-- Of a single list and its register, the references and the sets match one by one. -/
  matched : ∀ config operations acl, steps = [.build config operations] →
    (Step.perform (.build config operations) []).result = .ok (.list acl) →
    acl.references = (run [] steps).map (fun spec => Register.reference spec.logicalId) ∧
      acl.references.Nodup

/-- **Every session is sound.** -/
theorem sound (steps : List Step) : Sound steps := by
  have hnil : (([] : Register).map (·.logicalId)).Nodup := List.nodup_nil
  have hdistinct := nodup_run hnil steps
  have hone : ∀ before step, run [] (before ++ [step]) = (step.perform (run [] before)).state :=
    fun before step => run_append [] before [step]
  refine ⟨hdistinct, ?_, ?_, ?_, ?_, ?_⟩
  · intro before step after error _ herror
    rw [hone]
    rcases perform_cases step (run [] before) with hsame | ⟨product, spec, hok, -⟩
    · exact hsame
    · rw [hok] at herror
      cases herror
  · intro before step after product _ _
    rw [hone]
    rcases perform_cases step (run [] before) with hsame | ⟨-, spec, -, hadded, -⟩
    · exact ⟨[], hsame.trans (List.append_nil _).symm⟩
    · exact ⟨[spec], hadded⟩
  · intro before config operations after acl ranked arn hsteps hok hranked hpart
    have href : arn ∈ acl.references := Acl.mem_references.mpr ⟨ranked, hranked, hpart⟩
    rcases list_cases hok with ⟨-, hnone, -⟩ | ⟨addresses, haddr, hreference, hadded, -⟩
    · rw [hnone] at href
      cases href
    · rw [hreference, List.mem_singleton] at href
      have hmem := mem_run_of_added hadded after
      rw [← hsteps] at hmem
      have hfilter := filter_reference hdistinct hmem
      rw [href]
      exact ⟨Draft.blocklistSpec config addresses, rfl, hfilter, rfl, rfl, haddr⟩
  · rintro before first earlier between second later after firstAcl secondAcl -
      ⟨addresses, haddr⟩ ⟨others, hothers⟩ hfirst hsecond
    rcases list_cases hfirst with ⟨hnone, -⟩ | ⟨recorded, -, -, hadded, -⟩
    · exact hnone addresses haddr
    · rcases list_cases hsecond with ⟨hnone, -⟩ | ⟨-, -, -, -, hfresh⟩
      · exact hnone others hothers
      -- the second set would bear the identifier of the first
      · exact hfresh (List.mem_map.mpr ⟨_, mem_run_of_added hadded between, rfl⟩)
  · rintro config operations acl rfl hok
    have hrun : run [] [.build config operations] =
      (Step.perform (.build config operations) []).state := rfl
    rcases list_cases hok with ⟨-, hnone, hsame⟩ | ⟨addresses, -, hreference, hadded, -⟩
    · rw [hrun, hsame, hnone]
      exact ⟨rfl, List.nodup_nil⟩
    · rw [hrun, hadded, hreference]
      exact ⟨rfl, List.nodup_singleton _⟩

/-- A set of one's own goes along with the first blocklist, and the second blocklist is refused. -/
example : run [] [.record ⟨"Office", .regional, .ipv6, ["2001:db8::/32"]⟩,
      .build .default [.ipRestriction ["192.0.2.0/24"]],
      .build .default [.ipRestriction ["198.51.100.0/24"]]] =
    [⟨"Office", .regional, .ipv6, ["2001:db8::/32"]⟩,
      ⟨"BlocklistIpSet", .cloudfront, .ipv4, ["192.0.2.0/24"]⟩] := rfl

end Session

end WebAcl
