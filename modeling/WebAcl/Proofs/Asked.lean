import WebAcl.Draft
import WebAcl.Proofs.Reference

/-! # What operations ask for

A draft is described here without running it: every operation adds the same rules and registers the
same response bodies wherever it stands among the others. Only the token of a blocklist depends on
what went before, so the rules of an operation are given for any reference `arn` in its place.

* `Operation.rules`, `Operation.asked`: the rules of one operation and of many, by queue.
* `Operation.restrictions`: the addresses of the blocklists that are asked for.
* `Operation.Registers`: under which keys an operation leaves a response body.
* `Draft.map_withReference_rules_run`, `Draft.references_run`, `Draft.pending_run`,
  `Draft.contains_run`: the draft that operations make is the one described. -/

namespace WebAcl

/-! ### One operation and many -/

namespace Operation

/-- The rules that an operation adds to a queue, if its blocklist refers to `arn`. -/
def rules (config : Config) (arn : String) (queue : Queue) : Operation → List Rule
  | .managedRules selection exclusions =>
    if queue = .block then selection.groups.map fun group => group.rule (exclusions.names group)
    else []
  | .ipRestriction _ => if queue = .block then [Draft.blocklistRule arn] else []
  | .throttle name limit condition key action =>
    if action.queue = queue then [Throttle.rule name limit condition key action config.userHeader]
    else []
  | .responseBody _ _ => []
  | .preset named (some limit) =>
    if named.queue = queue then [named.rule limit config.userHeader] else []
  | .preset _ none => []

/-- The rules that are asked for, in the order in which they are tried: all counting ones before all
blocking ones, and in a queue those of earlier operations first. -/
def asked (config : Config) (arn : String) (operations : List Operation) : List Rule :=
  operations.flatMap (rules config arn .count) ++ operations.flatMap (rules config arn .block)

/-- The addresses that an operation blocks. -/
def restriction? : Operation → Option (List String)
  | .ipRestriction addresses => some addresses
  | _ => none

/-- The addresses of each blocklist that is asked for. -/
def restrictions (operations : List Operation) : List (List String) :=
  operations.filterMap restriction?

/-- An operation leaves a response body under a key: it registers one there itself, or it is a named
blocking throttle whose limit gives this key. -/
def Registers (key : String) : Operation → Prop
  | .responseBody other _ => other = key
  | .preset named (some limit) => named.queue = .block ∧ named.bodyKey limit = key
  | _ => False

instance (key : String) (operation : Operation) : Decidable (operation.Registers key) := by
  unfold Registers; split <;> infer_instance

theorem restrictions_cons (operation : Operation) (operations : List Operation) :
    restrictions (operation :: operations) =
      operation.restriction?.toList ++ restrictions operations := by
  rw [restrictions, restrictions, List.filterMap_cons]
  cases operation.restriction? <;> rfl

theorem mem_restrictions {addresses : List String} {operations : List Operation} :
    addresses ∈ restrictions operations ↔ .ipRestriction addresses ∈ operations := by
  rw [restrictions, List.mem_filterMap]
  constructor
  · rintro ⟨operation, hmem, h⟩
    cases operation <;> cases h
    exact hmem
  · exact fun h => ⟨_, h, rfl⟩

theorem not_mem_of_restrictions_eq_nil {operations : List Operation}
    (h : restrictions operations = []) (addresses : List String) :
    .ipRestriction addresses ∉ operations := by
  rw [← mem_restrictions, h]
  exact List.not_mem_nil

theorem mem_iff_of_restrictions_eq {operations : List Operation} {addresses : List String}
    (h : restrictions operations = [addresses]) {other : List String} :
    .ipRestriction other ∈ operations ↔ other = addresses := by
  rw [← mem_restrictions, h, List.mem_singleton]

variable {config : Config} {arn other : String} {queue : Queue} {operation : Operation}

theorem rules_of_restriction {addresses : List String}
    (h : operation.restriction? = some addresses) :
    operation.rules config arn queue =
      if queue = .block then [Draft.blocklistRule arn] else [] := by
  cases operation <;> cases h
  rfl

/-- Without a blocklist there is nothing to refer to. -/
theorem rules_eq_of_no_restriction (h : operation.restriction? = none) :
    operation.rules config arn queue = operation.rules config other queue := by
  cases operation with
  | ipRestriction addresses => cases h
  | managedRules selection exclusions => rfl
  | throttle name limit condition key action => rfl
  | responseBody key body => rfl
  | preset named limit => cases limit <;> rfl

/-- A rule that is asked for stands for a managed group, for a blocklist or for a throttle. -/
theorem mem_rules_cases {rule : Rule} (h : rule ∈ operation.rules config arn queue) :
    (∃ group names, queue = .block ∧ rule = ManagedGroup.rule group names) ∨
    (∃ addresses, operation.restriction? = some addresses ∧ queue = .block ∧
      rule = Draft.blocklistRule arn) ∨
    ∃ name limit condition key action, ThrottleAction.queue action = queue ∧
      rule = Throttle.rule name limit condition key action config.userHeader := by
  cases operation with
  | managedRules selection exclusions =>
    rw [rules] at h
    split at h
    · next hq =>
      obtain ⟨group, -, rfl⟩ := List.mem_map.mp h
      exact Or.inl ⟨group, _, hq, rfl⟩
    · cases h
  | ipRestriction addresses =>
    rw [rules] at h
    split at h
    · next hq => exact Or.inr (Or.inl ⟨addresses, rfl, hq, List.mem_singleton.mp h⟩)
    · cases h
  | throttle name limit condition key action =>
    rw [rules] at h
    split at h
    · next hq => exact Or.inr (Or.inr ⟨name, limit, condition, key, action, hq,
        List.mem_singleton.mp h⟩)
    · cases h
  | responseBody key body => cases h
  | preset named limit =>
    cases limit with
    | none => cases h
    | some limit =>
      rw [rules] at h
      split at h
      · next hq =>
        refine Or.inr (Or.inr ⟨_, _, _, _, _, ?_, List.mem_singleton.mp h⟩)
        rw [Preset.queue_action, hq]
      · cases h

theorem mem_asked {rule : Rule} {operations : List Operation} :
    rule ∈ asked config arn operations ↔
      ∃ queue, ∃ operation ∈ operations, rule ∈ operation.rules config arn queue := by
  rw [asked, List.mem_append, List.mem_flatMap, List.mem_flatMap]
  constructor
  · rintro (h | h)
    · exact ⟨.count, h⟩
    · exact ⟨.block, h⟩
  · rintro ⟨queue, h⟩
    cases queue
    · exact Or.inl h
    · exact Or.inr h

theorem reference?_of_no_restriction (h : operation.restriction? = none) {rule : Rule}
    (hrule : rule ∈ operation.rules config arn queue) : rule.statement.reference? = none := by
  rcases mem_rules_cases hrule with ⟨group, names, -, rfl⟩ | ⟨addresses, hsome, -⟩ |
    ⟨name, limit, condition, key, action, -, rfl⟩
  · rfl
  · rw [h] at hsome
    cases hsome
  · cases condition <;> rfl

/-- The references of an operation's rules: one for a blocklist, and only among those that block. -/
theorem filterMap_reference?_rules :
    (operation.rules config arn queue).filterMap (·.statement.reference?) =
      if queue = .block then operation.restriction?.toList.map fun _ => arn else [] := by
  cases h : operation.restriction? with
  | none =>
    have hnil : (operation.rules config arn queue).filterMap (·.statement.reference?) = [] :=
      List.filterMap_eq_nil_iff.mpr fun rule hrule => reference?_of_no_restriction h hrule
    rw [hnil]
    exact (ite_self _).symm
  | some addresses =>
    rw [rules_of_restriction h]
    split <;> rfl

theorem map_withReference_rules :
    (operation.rules config other queue).map (·.withReference arn) =
      operation.rules config arn queue := by
  cases h : operation.restriction? with
  | none =>
    have hsame : operation.rules config other queue = operation.rules config arn queue :=
      rules_eq_of_no_restriction h
    rw [hsame]
    exact Rule.map_withReference_of_none arn fun rule hrule =>
      reference?_of_no_restriction h hrule
  | some addresses =>
    rw [rules_of_restriction h, rules_of_restriction h]
    split <;> rfl

/-- Every blocklist that is asked for brings a rule of the same name. -/
theorem length_restrictions_le (operations : List Operation) : (restrictions operations).length ≤
    ((asked config arn operations).map (·.name)).count "IpBlocklist" := by
  rw [asked, List.map_append, List.count_append]
  refine Nat.le_trans ?_ (Nat.le_add_left _ _)
  induction operations with
  | nil => exact Nat.zero_le _
  | cons operation operations ih =>
    rw [restrictions_cons, List.length_append, List.flatMap_cons, List.map_append,
      List.count_append]
    refine Nat.add_le_add ?_ ih
    cases h : operation.restriction? with
    | none => exact Nat.zero_le _
    | some addresses =>
      rw [rules_of_restriction h]
      exact Nat.le_refl 1

/-- Rules of different names have at most one blocklist among them. -/
theorem restrictions_cases_of_nodup {operations : List Operation}
    (h : ((asked config arn operations).map (·.name)).Nodup) :
    restrictions operations = [] ∨ ∃ addresses, restrictions operations = [addresses] := by
  have hone : (restrictions operations).length ≤ 1 :=
    Nat.le_trans (length_restrictions_le operations) (List.nodup_iff_count.mp h "IpBlocklist")
  match hres : restrictions operations, hone with
  | [], _ => exact Or.inl rfl
  | [addresses], _ => exact Or.inr ⟨addresses, rfl⟩

end Operation

/-! ### The draft that operations make -/

namespace Draft

open Operation

@[simp] theorem run_nil (draft : Draft) : draft.run [] = draft := rfl

@[simp] theorem run_cons (draft : Draft) (operation : Operation) (operations : List Operation) :
    draft.run (operation :: operations) = (draft.apply operation).run operations := rfl

theorem config_enqueue (draft : Draft) (rule : Rule) (queue : Queue) :
    (draft.enqueue rule queue).config = draft.config := by cases queue <;> rfl

theorem bodies_enqueue (draft : Draft) (rule : Rule) (queue : Queue) :
    (draft.enqueue rule queue).bodies = draft.bodies := by cases queue <;> rfl

theorem pending_enqueue (draft : Draft) (rule : Rule) (queue : Queue) :
    (draft.enqueue rule queue).pending = draft.pending := by cases queue <;> rfl

theorem countRules_enqueue (draft : Draft) (rule : Rule) (queue : Queue) :
    (draft.enqueue rule queue).countRules =
      draft.countRules ++ if queue = .count then [rule] else [] := by
  cases queue
  · rfl
  · exact (List.append_nil _).symm

theorem blockRules_enqueue (draft : Draft) (rule : Rule) (queue : Queue) :
    (draft.enqueue rule queue).blockRules =
      draft.blockRules ++ if queue = .block then [rule] else [] := by
  cases queue
  · exact (List.append_nil _).symm
  · rfl

section Preset

variable (draft : Draft) (named : Preset) (limit : UInt64)

theorem config_addPreset : (draft.addPreset named limit).config = draft.config := by
  unfold addPreset
  rw [config_enqueue]
  cases named.body? limit <;> rfl

theorem pending_addPreset : (draft.addPreset named limit).pending = draft.pending := by
  unfold addPreset
  rw [pending_enqueue]
  cases named.body? limit <;> rfl

theorem countRules_addPreset : (draft.addPreset named limit).countRules =
    draft.countRules ++
      if named.queue = .count then [named.rule limit draft.config.userHeader] else [] := by
  unfold addPreset
  rw [countRules_enqueue]
  cases named.body? limit <;> rfl

theorem blockRules_addPreset : (draft.addPreset named limit).blockRules =
    draft.blockRules ++
      if named.queue = .block then [named.rule limit draft.config.userHeader] else [] := by
  unfold addPreset
  rw [blockRules_enqueue]
  cases named.body? limit <;> rfl

theorem contains_addPreset {key : String} :
    (draft.addPreset named limit).bodies.contains key ↔
      draft.bodies.contains key ∨ named.queue = .block ∧ named.bodyKey limit = key := by
  unfold addPreset
  rw [bodies_enqueue]
  cases hq : named.queue with
  | count => simp [Preset.body?, hq]
  | block =>
    simp only [Preset.body?, hq, true_and]
    exact KeyTable.contains_insertNew ..

end Preset

/-! ### One operation -/

section Apply

variable (draft : Draft) (operation : Operation)

theorem config_apply : (draft.apply operation).config = draft.config := by
  cases operation with
  | managedRules selection exclusions => rfl
  | ipRestriction addresses => rfl
  | throttle name limit condition key action => exact config_enqueue ..
  | responseBody key body => rfl
  | preset named limit =>
    cases limit with
    | none => rfl
    | some limit => exact config_addPreset ..

theorem countRules_apply (arn : String) : (draft.apply operation).countRules =
    draft.countRules ++ operation.rules draft.config arn .count := by
  cases operation with
  | managedRules selection exclusions => exact (List.append_nil _).symm
  | ipRestriction addresses => exact (List.append_nil _).symm
  | throttle name limit condition key action => exact countRules_enqueue ..
  | responseBody key body => exact (List.append_nil _).symm
  | preset named limit =>
    cases limit with
    | none => exact (List.append_nil _).symm
    | some limit => exact countRules_addPreset ..

/-- The blocklist of an operation refers to the next token. -/
theorem blockRules_apply : (draft.apply operation).blockRules =
    draft.blockRules ++
      operation.rules draft.config (pendingToken draft.pending.length) .block := by
  cases operation with
  | managedRules selection exclusions => rfl
  | ipRestriction addresses => rfl
  | throttle name limit condition key action => exact blockRules_enqueue ..
  | responseBody key body => exact (List.append_nil _).symm
  | preset named limit =>
    cases limit with
    | none => exact (List.append_nil _).symm
    | some limit => exact blockRules_addPreset ..

/-- The IP sets of blocklists that are asked for after `place` others. -/
def pendingFrom (config : Config) (place : Nat) (restrictions : List (List String)) :
    List PendingIpSet :=
  (restrictions.zipIdx place).map fun (addresses, place) =>
    ⟨pendingToken place, blocklistSpec config addresses⟩

theorem pending_apply : (draft.apply operation).pending =
    draft.pending ++
      pendingFrom draft.config draft.pending.length operation.restriction?.toList := by
  cases operation with
  | managedRules selection exclusions => exact (List.append_nil _).symm
  | ipRestriction addresses => rfl
  | throttle name limit condition key action =>
    rw [apply, pending_enqueue]
    exact (List.append_nil _).symm
  | responseBody key body => exact (List.append_nil _).symm
  | preset named limit =>
    cases limit with
    | none => exact (List.append_nil _).symm
    | some limit =>
      rw [apply, pending_addPreset]
      exact (List.append_nil _).symm

/-- An operation adds as many references to the blocking rules as it adds tokens. -/
theorem references_blockRules_apply
    (h : draft.blockRules.filterMap (·.statement.reference?) = draft.pending.map (·.token)) :
    (draft.apply operation).blockRules.filterMap (·.statement.reference?) =
      (draft.apply operation).pending.map (·.token) := by
  rw [blockRules_apply, pending_apply, List.filterMap_append, List.map_append, h,
    filterMap_reference?_rules, if_pos rfl]
  cases operation.restriction? <;> rfl

theorem contains_apply {key : String} : (draft.apply operation).bodies.contains key ↔
    draft.bodies.contains key ∨ operation.Registers key := by
  have hsame : ∀ p : Prop, p ↔ p ∨ False := fun p => (or_iff_left id).symm
  cases operation with
  | managedRules selection exclusions => exact hsame _
  | ipRestriction addresses => exact hsame _
  | throttle name limit condition key action =>
    rw [apply, bodies_enqueue]
    exact hsame _
  | responseBody key body => exact KeyTable.contains_insert ..
  | preset named limit =>
    cases limit with
    | none => exact hsame _
    | some limit => exact contains_addPreset ..

end Apply

/-! ### Many operations -/

section Run

variable (draft : Draft) (operations : List Operation)

theorem config_run : (draft.run operations).config = draft.config := by
  induction operations generalizing draft with
  | nil => rfl
  | cons operation operations ih => rw [run_cons, ih, config_apply]

theorem countRules_run (arn : String) : (draft.run operations).countRules =
    draft.countRules ++ operations.flatMap (Operation.rules draft.config arn .count) := by
  induction operations generalizing draft with
  | nil => exact (List.append_nil _).symm
  | cons operation operations ih =>
    rw [run_cons, ih, countRules_apply draft operation arn, config_apply, List.flatMap_cons,
      List.append_assoc]

/-- Up to their references, the blocking rules are those of the operations in turn. -/
theorem map_withReference_blockRules_run (arn : String) :
    (draft.run operations).blockRules.map (·.withReference arn) =
      draft.blockRules.map (·.withReference arn) ++
        operations.flatMap (Operation.rules draft.config arn .block) := by
  induction operations generalizing draft with
  | nil => exact (List.append_nil _).symm
  | cons operation operations ih =>
    rw [run_cons, ih, blockRules_apply, config_apply, List.map_append, map_withReference_rules,
      List.flatMap_cons, List.append_assoc]

theorem pendingFrom_append (config : Config) (place : Nat) (first second : List (List String)) :
    pendingFrom config place (first ++ second) =
      pendingFrom config place first ++ pendingFrom config (place + first.length) second := by
  rw [pendingFrom, List.zipIdx_append, List.map_append]
  rfl

theorem length_pendingFrom (config : Config) (place : Nat) (restrictions : List (List String)) :
    (pendingFrom config place restrictions).length = restrictions.length := by
  rw [pendingFrom, List.length_map, List.length_zipIdx]

theorem pending_run : (draft.run operations).pending =
    draft.pending ++
      pendingFrom draft.config draft.pending.length (restrictions operations) := by
  induction operations generalizing draft with
  | nil => exact (List.append_nil _).symm
  | cons operation operations ih =>
    rw [run_cons, ih, pending_apply, config_apply, List.length_append, length_pendingFrom,
      restrictions_cons, pendingFrom_append, List.append_assoc]

/-- The references of the blocking rules stay in step with the tokens of the IP sets. -/
theorem references_blockRules_run
    (h : draft.blockRules.filterMap (·.statement.reference?) = draft.pending.map (·.token)) :
    (draft.run operations).blockRules.filterMap (·.statement.reference?) =
      (draft.run operations).pending.map (·.token) := by
  induction operations generalizing draft with
  | nil => exact h
  | cons operation operations ih => exact ih _ (references_blockRules_apply draft operation h)

theorem contains_run {key : String} : (draft.run operations).bodies.contains key ↔
    draft.bodies.contains key ∨ ∃ operation ∈ operations, operation.Registers key := by
  induction operations generalizing draft with
  | nil => simp
  | cons operation operations ih =>
    rw [run_cons, ih, contains_apply, or_assoc]
    simp only [List.mem_cons, exists_eq_or_imp]

end Run

/-! ### A draft from nothing -/

section New

variable (config : Config) (operations : List Operation)

theorem config_new : ((new config).run operations).config = config := config_run ..

theorem countRules_new (arn : String) : ((new config).run operations).countRules =
    operations.flatMap (Operation.rules config arn .count) :=
  countRules_run _ _ arn

/-- **The rules of a draft** are the rules that were asked for, up to their references. -/
theorem map_withReference_rules_new (arn : String) :
    ((new config).run operations).rules.map (·.withReference arn) =
      asked config arn operations := by
  have hblock := map_withReference_blockRules_run (new config) operations arn
  rw [rules, List.map_append, hblock, countRules_new config operations arn, List.map_flatMap]
  simp only [map_withReference_rules]
  rfl

/-- **The references** among the rules of a draft are the tokens of its IP sets, in order. -/
theorem references_new : ((new config).run operations).rules.filterMap (·.statement.reference?) =
    ((new config).run operations).pending.map (·.token) := by
  rw [rules, List.filterMap_append, references_blockRules_run _ _ rfl,
    countRules_new config operations "", List.filterMap_flatMap]
  simp only [filterMap_reference?_rules]
  simp

theorem pending_new : ((new config).run operations).pending =
    pendingFrom config 0 (restrictions operations) :=
  pending_run (new config) operations

theorem contains_new {key : String} : ((new config).run operations).bodies.contains key ↔
    ∃ operation ∈ operations, operation.Registers key := by
  rw [contains_run]
  simp [new]

/-- A blocking throttle registers the body that its limit gives. -/
example : ((new .default).run [.preset ⟨.block, .absent, .ip⟩ (some 100)]).bodies.contains
    "IP_THROTTLE_ANONYMOUS_USER_100" :=
  (contains_new .default _).mpr (by decide)

end New

end Draft

end WebAcl
