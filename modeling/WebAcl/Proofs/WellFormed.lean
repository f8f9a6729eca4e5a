import WebAcl.Proofs.BodyTable

/-! # The shape of a draft

Whatever was asked for, a draft has one shape: rules that count go by a rate, and a rule that blocks
is the rule of a managed group, of a blocklist or of a throttle. Each blocklist waits for the IP set
whose token stands in its rule, and the tokens are numbered in the order in which they were needed.

* `Rule.Fits`: the shape of a rule in a queue, which every rule that is asked for has.
* `Draft.WellFormed`: the shape of a draft. One operation keeps it (`WellFormed.apply`), and so do
  many (`WellFormed.run`).
* `Draft.Keeps`: what one operation leaves as it was. -/

namespace WebAcl

/-! ### The shape of a rule -/

namespace Rule

/-- What a rule that blocks may stand for. -/
inductive BlockingKind where
  | group
  | blocklist
  | throttle

/-- A rule has the verdict and the statement of its kind. -/
def IsOf (rule : Rule) : BlockingKind → Prop
  | .group => rule.verdict = .group ∧ ∃ group, rule.statement = .managedGroup group
  | .blocklist =>
    rule.name = "IpBlocklist" ∧ rule.verdict = .block none ∧ ∃ arn, rule.statement = .ipSet arn
  | .throttle => (∃ bodyKey, rule.verdict = .block (some ⟨429, bodyKey⟩)) ∧
    ∃ rate scopeDown, rule.statement = .rateBased rate scopeDown

/-- **The shape of a rule** in a queue. -/
structure Fits (config : Config) (queue : Queue) (rule : Rule) : Prop where
  counts : queue = .count → rule.verdict = .count ∧
    ∃ rate scopeDown, rule.statement = .rateBased rate scopeDown
  blocks : queue = .block → ∃! kind, rule.IsOf kind
  overrides : rule.verdict = .group ↔ ∃ group, rule.statement = .managedGroup group
  /-- At any depth a rate has custom keys if it goes by them, and is limited to a probe of the user
  header. -/
  probes : ∀ rate scopeDown, .rateBased rate scopeDown ∈ rule.statement.parts →
    (rate.customKeys.isSome ↔ rate.aggregation = .customKeys) ∧
      ∃ condition, scopeDown = Throttle.probe config.userHeader condition
  metric : rule.visibility.metricName = rule.name

/-- The kind of a blocking rule as its verdict tells it. -/
def kindOf? : Verdict → Option BlockingKind
  | .group => some .group
  | .block none => some .blocklist
  | .block (some _) => some .throttle
  | _ => none

theorem IsOf.kindOf?_eq {rule : Rule} {kind : BlockingKind} (h : rule.IsOf kind) :
    kindOf? rule.verdict = some kind := by
  cases kind with
  | group =>
    rw [h.1]
    rfl
  | blocklist =>
    rw [h.2.1]
    rfl
  | throttle =>
    obtain ⟨⟨bodyKey, hverdict⟩, -⟩ := h
    rw [hverdict]
    rfl

/-- A rule is of one kind only. -/
theorem existsUnique_isOf {rule : Rule} (kind : BlockingKind) (h : rule.IsOf kind) :
    ∃! kind, rule.IsOf kind :=
  ⟨kind, h, fun _ hother => Option.some.inj (hother.kindOf?_eq.symm.trans h.kindOf?_eq)⟩

theorem fits_group (config : Config) (group : ManagedGroup) (names : List String) :
    (group.rule names).Fits config .block where
  counts := nofun
  blocks _ := existsUnique_isOf .group ⟨rfl, _, rfl⟩
  overrides := ⟨fun _ => ⟨_, rfl⟩, fun _ => rfl⟩
  probes rate scopeDown hpart := by cases List.mem_singleton.mp hpart
  metric := rfl

theorem fits_blocklist (config : Config) (arn : String) :
    (Draft.blocklistRule arn).Fits config .block where
  counts := nofun
  blocks _ := existsUnique_isOf .blocklist ⟨rfl, rfl, _, rfl⟩
  overrides := by
    refine ⟨nofun, ?_⟩
    rintro ⟨group, hstatement⟩
    cases hstatement
  probes rate scopeDown hpart := by cases List.mem_singleton.mp hpart
  metric := rfl

theorem fits_throttle (config : Config) (name : String) (limit : UInt64)
    (condition : HeaderCondition) (key : RateKey) (action : ThrottleAction) :
    (Throttle.rule name limit condition key action config.userHeader).Fits config action.queue where
  counts hqueue := by
    cases action with
    | count => exact ⟨rfl, _, _, rfl⟩
    | block bodyKey => cases hqueue
  blocks hqueue := by
    cases action with
    | count => cases hqueue
    | block bodyKey => exact existsUnique_isOf .throttle ⟨⟨bodyKey, rfl⟩, _, _, rfl⟩
  overrides := by
    constructor
    · intro hverdict
      cases action <;> cases hverdict
    · rintro ⟨group, hstatement⟩
      cases hstatement
  probes rate scopeDown hpart := by
    rcases List.mem_cons.mp hpart with heq | hbelow
    · cases heq
      exact ⟨by cases key <;> simp [Throttle.rate], condition, rfl⟩
    · -- a probe bounds the size of a header and limits no rate
      cases condition <;> simp [Throttle.probe, Statement.parts] at hbelow
  metric := rfl

end Rule

/-- Every rule that is asked for fits its queue. -/
theorem Operation.fits_of_mem_rules {config : Config} {arn : String} {queue : Queue}
    {operation : Operation} {rule : Rule} (h : rule ∈ operation.rules config arn queue) :
    rule.Fits config queue := by
  rcases mem_rules_cases h with ⟨group, names, rfl, rfl⟩ | ⟨addresses, -, rfl, rfl⟩ |
    ⟨name, limit, condition, key, action, rfl, rfl⟩
  · exact Rule.fits_group config group names
  · exact Rule.fits_blocklist config arn
  · exact Rule.fits_throttle config name limit condition key action

/-! ### The shape of a draft -/

namespace Draft

open Operation

/-- **The shape of a draft** for a list with this configuration. -/
structure WellFormed (config : Config) (draft : Draft) : Prop where
  config_eq : draft.config = config
  countRules : ∀ rule ∈ draft.countRules, rule.Fits config .count
  blockRules : ∀ rule ∈ draft.blockRules, rule.Fits config .block
  /-- The references of the blocking rules, at any depth, are the tokens of the IP sets. -/
  references : draft.blockRules.flatMap (·.statement.references) = draft.pending.map (·.token)
  numbered : draft.pending.map (·.token) = (List.range draft.pending.length).map pendingToken
  specs : ∀ wanted ∈ draft.pending,
    wanted.spec.scope = config.scope ∧ wanted.spec.addressVersion = config.addressVersion

theorem flatMap_references (rules : List Rule) :
    rules.flatMap (·.statement.references) = rules.filterMap (·.statement.reference?) := by
  rw [List.filterMap_eq_flatMap_toList]
  refine congrFun (congrArg List.flatMap (funext fun rule => ?_)) _
  exact Statement.references_eq _

theorem pendingToken_inj {m n : Nat} (h : pendingToken m = pendingToken n) : m = n :=
  Text.decimal_inj.mp ((String.append_right_inj _).mp h)

namespace WellFormed

variable {config : Config} {draft : Draft}

theorem new (config : Config) : (Draft.new config).WellFormed config :=
  ⟨rfl, nofun, nofun, rfl, rfl, nofun⟩

/-- **One operation** keeps the shape. -/
theorem apply (h : draft.WellFormed config) (operation : Operation) :
    (draft.apply operation).WellFormed config := by
  obtain ⟨rfl, hcount, hblock, hreferences, hnumbered, hspecs⟩ := h
  refine ⟨config_apply .., ?_, ?_, ?_, ?_, ?_⟩
  · rw [countRules_apply draft operation ""]
    exact List.forall_mem_append.mpr ⟨hcount, fun rule => fits_of_mem_rules⟩
  · rw [blockRules_apply]
    exact List.forall_mem_append.mpr ⟨hblock, fun rule => fits_of_mem_rules⟩
  · rw [flatMap_references] at hreferences ⊢
    exact references_blockRules_apply draft operation hreferences
  · rw [pending_apply, List.map_append, List.length_append, hnumbered]
    cases operation.restriction? with
    | none => exact List.append_nil _
    | some addresses =>
      have hone : (pendingFrom draft.config draft.pending.length (some addresses).toList).length = 1 :=
        rfl
      rw [hone, List.range_succ, List.map_append]
      rfl
  · rw [pending_apply]
    refine List.forall_mem_append.mpr ⟨hspecs, fun wanted hwanted => ?_⟩
    obtain ⟨⟨addresses, place⟩, -, rfl⟩ := List.mem_map.mp hwanted
    exact ⟨rfl, rfl⟩

/-- **Many operations** keep it. -/
theorem run (h : draft.WellFormed config) (operations : List Operation) :
    (draft.run operations).WellFormed config := by
  induction operations generalizing draft with
  | nil => exact h
  | cons operation operations ih => exact ih (h.apply operation)

/-- Numbers that differ give tokens that differ. -/
theorem nodup_tokens (h : draft.WellFormed config) : (draft.pending.map (·.token)).Nodup := by
  rw [h.numbered]
  exact List.nodup_range.map fun _ _ => pendingToken_inj

end WellFormed

/-! ### What stays as it was -/

/-- An operation **keeps** what was there: it adds behind the rules and the IP sets, and a response
body gives way to nothing but a registration under its own key. -/
structure Keeps (operation : Operation) (before after : Draft) : Prop where
  countRules : before.countRules <+: after.countRules
  blockRules : before.blockRules <+: after.blockRules
  pending : before.pending <+: after.pending
  bodies : ∀ key body, before.bodies.get? key = some body →
    ∃ left, after.bodies.get? key = some left ∧ (left = body ∨ operation = .responseBody key left)

theorem keeps_apply (draft : Draft) (operation : Operation) :
    Keeps operation draft (draft.apply operation) where
  countRules := by
    rw [countRules_apply draft operation ""]
    exact List.prefix_append _ _
  blockRules := by
    rw [blockRules_apply]
    exact List.prefix_append _ _
  pending := by
    rw [pending_apply]
    exact List.prefix_append _ _
  bodies key body hbody := by
    rw [get?_apply, hbody]
    cases hdeclared : operation.declared? key with
    | none => exact ⟨body, rfl, Or.inl rfl⟩
    | some other => exact ⟨other, rfl, Or.inr (declared?_eq_some.mp hdeclared)⟩

/-- **Every draft that operations make is well formed**, its tokens are distinct, and whatever is asked
next keeps what is there. -/
theorem wellFormed_new_run (config : Config) (operations : List Operation) :
    ((new config).run operations).WellFormed config ∧
      (((new config).run operations).pending.map (·.token)).Nodup ∧
      ∀ operation, Keeps operation ((new config).run operations)
        (((new config).run operations).apply operation) := by
  have h := (WellFormed.new config).run operations
  exact ⟨h, h.nodup_tokens, fun operation => keeps_apply _ operation⟩

end Draft

end WebAcl
