import WebAcl.Draft
import WebAcl.Name

/-! # Building the access list

The rules of a draft get their priorities and are checked: there is a rule, no two share a name,
limits are positive, and every response body that a rule names is registered. Only then are the IP
sets created, in the order of priority, and their references put into the rules. The list comes
about as a whole or not at all.

* `repeatedNames`: the names that rules share.
* `Draft.defect?`: what is wrong with one rule.
* `Draft.review`: the warnings about names, up to the first defective rule.
* `Draft.build`: the list, or the first error. -/

namespace WebAcl

/-- An access list: requests that no rule stops are let through. -/
structure Acl where
  name : String
  scope : Scope
  visibility : Visibility
  rules : List RankedRule
  bodies : KeyTable ResponseBody

namespace Acl

/-- The first rule of a name. -/
def rule? (acl : Acl) (name : String) : Option RankedRule :=
  acl.rules.find? (·.rule.name = name)

/-- The names of the rules, in the order of priority. -/
def ruleNames (acl : Acl) : List String := acl.rules.map (·.rule.name)

end Acl

/-! ### Checks -/

/-- The names that occur again after one of `seen`, each once, where it occurs the second time. -/
def repeatedAfter (seen found : List String) : List String → List String
  | [] => found
  | name :: names =>
    if name ∈ seen then
      repeatedAfter seen (if name ∈ found then found else found ++ [name]) names
    else repeatedAfter (name :: seen) found names

/-- The names that occur more than once, in the order of their second occurrences. -/
def repeatedNames (names : List String) : List String := repeatedAfter [] [] names

/-- A warning, unless the name fits its alphabet. -/
def nameWarning (acl : String) (kind : NameKind) (fits : String → Bool) (value : String) :
    List Event :=
  if fits value then [] else [.nameDoubtful acl kind value]

/-- The entries up to and including the first one that `stops`. -/
def throughFirst {α : Type} (stops : α → Bool) : List α → List α
  | [] => []
  | a :: as => if stops a then [a] else a :: throughFirst stops as

namespace Rule

/-- The limit of a rule that goes by the rate of requests. -/
def limit? (rule : Rule) : Option UInt64 :=
  match rule.statement with
  | .rateBased rate _ => some rate.limit
  | _ => none

theorem limit?_eq_some {rule : Rule} {limit : UInt64} : rule.limit? = some limit ↔
    ∃ rate scopeDown, rule.statement = .rateBased rate scopeDown ∧ rate.limit = limit := by
  unfold limit?
  split
  · next rate scopeDown h => simp [h]
  · next hother => simpa using fun rate scopeDown h => absurd h (hother rate scopeDown)

/-- The warnings about the names of a rule and of its metric. -/
def nameWarnings (acl : String) (rule : Rule) : List Event :=
  nameWarning acl .rule Name.isRuleName rule.name ++
    nameWarning acl .metric Name.isMetricName rule.visibility.metricName

end Rule

namespace Draft

/-- What is wrong with a rule: a limit of zero, or else a response body that is not registered. -/
def defect? (draft : Draft) (rule : Rule) : Option AclError :=
  if rule.limit? = some 0 then some (.invalidRateLimit rule.name 0)
  else
    match rule.responseKey? with
    | some key =>
      if draft.bodies.contains key then none else some (.missingResponseBody rule.name key)
    | none => none

/-- The warnings about the names of the list and of the rules that are looked at. -/
def review (draft : Draft) : List Event :=
  nameWarning draft.config.name .acl Name.isRuleName draft.config.name ++
    nameWarning draft.config.name .metric Name.isMetricName draft.config.visibility.metricName ++
    (throughFirst (fun rule => (draft.defect? rule).isSome) draft.rules).flatMap
      (·.nameWarnings draft.config.name)

end Draft

/-! ### IP sets -/

/-- What the creation of IP sets goes by: the sets still to be created, the state of the
provisioner, and what happened so far. -/
structure Supply (σ : Type) where
  pending : List PendingIpSet
  state : σ
  events : List Event

namespace Supply

variable {σ : Type}

/-- Creates the IP set that a token stands for and leaves its reference in place of the token. -/
def resolve (create : Provisioner σ) : Visitor (Supply σ) AclError := fun token supply =>
  match supply.pending.find? (·.token = token) with
  | none => ⟨token, .error (.unresolvedIpSet token), supply⟩
  | some wanted =>
    let outcome := create wanted.spec supply.state
    let supply : Supply σ :=
      ⟨supply.pending.filter (·.token ≠ token), outcome.state, supply.events ++ outcome.events⟩
    match outcome.result with
    | .ok reference => ⟨reference, .ok (), supply⟩
    | .error error => ⟨token, .error error, supply⟩

/-- Creates the IP sets of the rules in turn; the first failure ends it. -/
def resolveAll (create : Provisioner σ) :
    List RankedRule → Supply σ → Except AclError (List RankedRule) × Supply σ
  | [], supply => (.ok [], supply)
  | ranked :: rules, supply =>
    let visit := ranked.rule.statement.visit (resolve create) supply
    match visit.ended with
    | .error error => (.error error, visit.state)
    | .ok () =>
      let resolved : RankedRule :=
        { ranked with rule := { ranked.rule with statement := visit.left } }
      match resolveAll create rules visit.state with
      | (.ok rules, supply) => (.ok (resolved :: rules), supply)
      | (.error error, supply) => (.error error, supply)

end Supply

/-! ### The list -/

namespace Draft

variable {σ : Type}

/-- The error that keeps a draft from being built whatever the provisioner does. -/
def configurationError? (draft : Draft) : Option AclError :=
  if draft.rules.isEmpty then some (.emptyRuleSet draft.config.name)
  else
    match repeatedNames (draft.rules.map (·.name)) with
    | [] => draft.rules.findSome? draft.defect?
    | names => some (.duplicateRuleName draft.config.name names)

/-- The warnings of a build; a list without rules or with shared names is not reviewed. -/
def buildWarnings (draft : Draft) : List Event :=
  if draft.rules.isEmpty then []
  else
    match repeatedNames (draft.rules.map (·.name)) with
    | [] => draft.review
    | _ => []

/-- The list with these rules. -/
def aclOf (draft : Draft) (rules : List RankedRule) : Acl where
  name := draft.config.name
  scope := draft.config.scope
  visibility := draft.config.visibility
  rules := rules
  bodies := draft.bodies

/-- The event of a completed build. -/
def completed (draft : Draft) : Event :=
  .aclBuilt draft.config.name draft.countRules.length draft.blockRules.length draft.bodies.size

/-- Creates the IP sets of a draft without defects and puts the list together. -/
def provision (draft : Draft) (create : Provisioner σ) (state : σ) : Outcome σ Acl :=
  match Supply.resolveAll create (RankedRule.rank draft.rules) ⟨draft.pending, state, []⟩ with
  | (.error error, supply) => ⟨.error error, supply.state, supply.events⟩
  | (.ok rules, supply) =>
    match supply.pending with
    | wanted :: _ => ⟨.error (.unresolvedIpSet wanted.token), supply.state, supply.events⟩
    | [] => ⟨.ok (draft.aclOf rules), supply.state, supply.events ++ [draft.completed]⟩

/-- **The access list of a draft**, or the first error. -/
def build (draft : Draft) (create : Provisioner σ) (state : σ) : Outcome σ Acl :=
  match draft.configurationError? with
  | some error => ⟨.error error, state, draft.buildWarnings⟩
  | none =>
    let outcome := draft.provision create state
    { outcome with events := draft.buildWarnings ++ outcome.events }

end Draft

end WebAcl
