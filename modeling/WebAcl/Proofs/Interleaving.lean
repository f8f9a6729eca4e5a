import WebAcl.Proofs.BodyTable

/-! # The order of operations

An operation is about the counting rules, about the blocking rules, or about a response body that
it registers (`Operation.queue?`). Only the order within each kind matters: the draft, and with it
every build, stays the same however operations of different kinds are interleaved
(`Draft.run_eq_of_same_parts`). The two queues and the waiting IP sets see one kind of operations
each. The table of bodies sees two, but the registrations decide alone wherever there is one, and
the throttles where there is none. -/

namespace WebAcl

namespace Operation

/-! ### Kinds of operations -/

/-- The queue that an operation is about; the registration of a body is about none. -/
def queue? : Operation → Option Queue
  | .managedRules _ _ => some .block
  | .ipRestriction _ => some .block
  | .throttle _ _ _ _ action => some action.queue
  | .responseBody _ _ => none
  | .preset named _ => some named.queue

/-- The operations of one kind, in their order. -/
def part (kind : Option Queue) (operations : List Operation) : List Operation :=
  operations.filter (·.queue? = kind)

variable {config : Config} {arn : String} {queue : Queue} {operation : Operation} {key : String}

/-- An operation adds rules to no queue but its own. -/
theorem rules_eq_nil_of_queue? (h : operation.queue? ≠ some queue) :
    operation.rules config arn queue = [] := by
  cases operation with
  | managedRules selection exclusions => exact if_neg fun hq => h (congrArg some hq.symm)
  | ipRestriction addresses => exact if_neg fun hq => h (congrArg some hq.symm)
  | throttle name limit condition rateKey action => exact if_neg fun hq => h (congrArg some hq)
  | responseBody other body => rfl
  | preset named limit =>
    cases limit with
    | none => rfl
    | some limit => exact if_neg fun hq => h (congrArg some hq)

theorem restriction?_eq_none_of_queue? (h : operation.queue? ≠ some .block) :
    operation.restriction? = none := by
  cases operation with
  | ipRestriction addresses => exact absurd rfl h
  | managedRules selection exclusions => rfl
  | throttle name limit condition rateKey action => rfl
  | responseBody other body => rfl
  | preset named limit => rfl

theorem declared?_eq_none_of_queue? (h : operation.queue? ≠ none) :
    operation.declared? key = none := by
  refine declared?_eq_none.mpr ?_
  rintro body rfl
  exact h rfl

theorem derived?_eq_none_of_queue? (h : operation.queue? ≠ some .block) :
    operation.derived? key = none := by
  refine Option.eq_none_iff_forall_ne_some.mpr fun body hbody => h ?_
  obtain ⟨named, limit, rfl, hblock, -⟩ := derived?_eq_some.mp hbody
  exact congrArg some hblock

/-! ### What only one kind of operations contributes to -/

section Part

variable {kind : Option Queue}

theorem part_cons_of_eq {operation : Operation} (h : operation.queue? = kind)
    (operations : List Operation) :
    part kind (operation :: operations) = operation :: part kind operations :=
  List.filter_cons_of_pos (decide_eq_true h)

theorem part_cons_of_ne {operation : Operation} (h : operation.queue? ≠ kind)
    (operations : List Operation) : part kind (operation :: operations) = part kind operations :=
  List.filter_cons_of_neg (by simpa using h)

theorem flatMap_part {α : Type} {f : Operation → List α}
    (h : ∀ operation : Operation, operation.queue? ≠ kind → f operation = [])
    (operations : List Operation) : (part kind operations).flatMap f = operations.flatMap f := by
  induction operations with
  | nil => rfl
  | cons operation operations ih =>
    by_cases hkind : operation.queue? = kind
    · rw [part_cons_of_eq hkind, List.flatMap_cons, List.flatMap_cons, ih]
    · rw [part_cons_of_ne hkind, List.flatMap_cons, ih, h _ hkind, List.nil_append]

theorem findSome?_part {α : Type} {f : Operation → Option α}
    (h : ∀ operation : Operation, operation.queue? ≠ kind → f operation = none)
    (operations : List Operation) :
    (part kind operations).findSome? f = operations.findSome? f := by
  induction operations with
  | nil => rfl
  | cons operation operations ih =>
    by_cases hkind : operation.queue? = kind
    · rw [part_cons_of_eq hkind, List.findSome?_cons, List.findSome?_cons, ih]
    · rw [part_cons_of_ne hkind, List.findSome?_cons, ih, h _ hkind]

theorem lastDeclared?_part (key : String) (operations : List Operation) :
    lastDeclared? key (part none operations) = lastDeclared? key operations := by
  have hreverse : (part none operations).reverse = part none operations.reverse :=
    (List.filter_reverse ..).symm
  rw [lastDeclared?, hreverse]
  exact findSome?_part (fun _ => declared?_eq_none_of_queue?) _

theorem firstDerived?_part (key : String) (operations : List Operation) :
    firstDerived? key (part (some .block) operations) = firstDerived? key operations :=
  findSome?_part (fun _ => derived?_eq_none_of_queue?) _

end Part

end Operation

/-! ### The draft without the other kinds -/

namespace Draft

open Operation

attribute [ext] Draft

/-- The counting rules come from the operations about them. -/
theorem countRules_part (config : Config) (operations : List Operation) :
    ((new config).run (part (some .count) operations)).countRules =
      ((new config).run operations).countRules := by
  rw [countRules_new config _ "", countRules_new config _ ""]
  exact flatMap_part (fun _ => rules_eq_nil_of_queue?) operations

/-- The blocking rules and the waiting IP sets come from the operations about blocking rules; the
tokens are counted along the IP sets and are the same with and without the others. -/
theorem blocking_part {draft other : Draft} (hconfig : draft.config = other.config)
    (hrules : draft.blockRules = other.blockRules) (hpending : draft.pending = other.pending)
    (operations : List Operation) :
    (draft.run (part (some .block) operations)).blockRules = (other.run operations).blockRules ∧
      (draft.run (part (some .block) operations)).pending = (other.run operations).pending := by
  induction operations generalizing draft other with
  | nil => exact ⟨hrules, hpending⟩
  | cons operation operations ih =>
    by_cases hkind : operation.queue? = some .block
    · -- both runs take the step, and the token of a new IP set is the number of those that wait
      rw [part_cons_of_eq hkind, run_cons, run_cons]
      refine ih ?_ ?_ ?_
      · rw [config_apply, config_apply, hconfig]
      · rw [blockRules_apply, blockRules_apply, hconfig, hrules, hpending]
      · rw [pending_apply, pending_apply, hconfig, hpending]
    · -- only the second run takes the step, which no blocking rule and no IP set sees
      rw [part_cons_of_ne hkind, run_cons]
      refine ih ?_ ?_ ?_
      · rw [config_apply, hconfig]
      · rw [blockRules_apply, rules_eq_nil_of_queue? hkind, List.append_nil, hrules]
      · rw [pending_apply, restriction?_eq_none_of_queue? hkind, hpending]
        exact (List.append_nil _).symm

/-- The entry of a key comes from the registrations and, where these are silent, from the operations
about blocking rules. -/
theorem get?_part (config : Config) (operations : List Operation) (key : String) :
    ((new config).run operations).bodies.get? key =
      (lastDeclared? key (part none operations)).or
        (firstDerived? key (part (some .block) operations)) := by
  rw [get?_new, lastDeclared?_part, firstDerived?_part]

/-! ### What is logged meanwhile -/

/-- One operation reports a missing limit, a replaced body, or nothing. -/
theorem mem_warnings {draft : Draft} {operation : Operation} {event : Event}
    (h : event ∈ draft.warnings operation) :
    (∃ named, event = .limitMissing named draft.config.name) ∨
      ∃ key, event = .bodyReplaced draft.config.name key := by
  cases operation with
  | managedRules selection exclusions => cases h
  | ipRestriction addresses => cases h
  | throttle name limit condition rateKey action => cases h
  | responseBody key body =>
    rw [warnings] at h
    split at h
    · exact Or.inr ⟨key, List.mem_singleton.mp h⟩
    · cases h
  | preset named limit =>
    cases limit with
    | none => exact Or.inl ⟨named, List.mem_singleton.mp h⟩
    | some limit => cases h

theorem mem_trace {draft : Draft} {operations : List Operation} {event : Event}
    (h : event ∈ draft.trace operations) :
    (∃ named, event = .limitMissing named draft.config.name) ∨
      ∃ key, event = .bodyReplaced draft.config.name key := by
  induction operations generalizing draft with
  | nil => cases h
  | cons operation operations ih =>
    rcases List.mem_append.mp h with h | h
    · exact mem_warnings h
    · rw [← config_apply draft operation]
      exact ih h

/-! ### Two orders of the same operations -/

/-- **Only the order within each kind matters.** Two sequences that have the same counting
operations, the same blocking operations and the same registrations, each in the same order, make
the same draft; so its build has the same outcome and makes the same calls, whoever creates the IP
sets. What may differ are reports of missing limits and of replaced bodies on the way. -/
theorem run_eq_of_same_parts (config : Config) {first second : List Operation}
    (same : ∀ kind, part kind first = part kind second) :
    (new config).run first = (new config).run second ∧
    (∀ (σ : Type) (create : Provisioner σ) (state : σ),
      ((new config).run first).build create state = ((new config).run second).build create state ∧
      ((new config).run first).calls create state =
        ((new config).run second).calls create state) ∧
    ∀ event, event ∈ (new config).trace first ∨ event ∈ (new config).trace second →
      (∃ named, event = .limitMissing named config.name) ∨
        ∃ key, event = .bodyReplaced config.name key := by
  have hdraft : (new config).run first = (new config).run second := by
    have hblocking := @blocking_part (new config) (new config) rfl rfl rfl
    refine Draft.ext ?_ ?_ ?_ ?_ ?_
    · rw [config_new, config_new]
    · rw [← countRules_part config first, ← countRules_part config second, same]
    · rw [← (hblocking first).1, ← (hblocking second).1, same]
    · refine KeyTable.ext_get? fun key => ?_
      rw [get?_part, get?_part, same, same]
    · rw [← (hblocking first).2, ← (hblocking second).2, same]
  refine ⟨hdraft, fun σ create state => ?_, fun event h => ?_⟩
  · rw [hdraft]
    exact ⟨rfl, rfl⟩
  · rcases h with h | h
    · exact mem_trace h
    · exact mem_trace h

/-- A body that is registered before its throttle or behind it: the drafts are equal, and only in
the second order a body is replaced. -/
theorem run_eq_of_body_before_or_behind : ∃ first second : List Operation,
    first = [.responseBody "IP_THROTTLE_ANONYMOUS_USER_100" (.text "Slow down."),
      .preset ⟨.count, .required, .ip⟩ (some 1000), .preset ⟨.block, .absent, .ip⟩ (some 100),
      .ipRestriction ["192.0.2.0/24"]] ∧
    second = [.preset ⟨.block, .absent, .ip⟩ (some 100), .ipRestriction ["192.0.2.0/24"],
      .responseBody "IP_THROTTLE_ANONYMOUS_USER_100" (.text "Slow down."),
      .preset ⟨.count, .required, .ip⟩ (some 1000)] ∧
    (∀ kind, part kind first = part kind second) ∧
    (new .default).run first = (new .default).run second ∧
    (new .default).trace first = [] ∧
    (new .default).trace second =
      [.bodyReplaced "WebACL" "IP_THROTTLE_ANONYMOUS_USER_100"] := by
  refine ⟨_, _, rfl, rfl, ?same, (run_eq_of_same_parts .default ?same).1, rfl, rfl⟩
  rintro (_ | _ | _) <;> rfl

end Draft

end WebAcl
