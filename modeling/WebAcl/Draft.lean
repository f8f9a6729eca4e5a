import WebAcl.Event
import WebAcl.KeyTable
import WebAcl.ManagedGroup
import WebAcl.IpSet

/-! # Drafts of an access list

A draft collects what is wanted, one operation after the other: counting rules and blocking rules in
two queues, response bodies by key, and the IP sets that are to be created. Nothing is checked and
nothing outside is touched; priorities and references to IP sets are settled when the list is built.

* `Operation`: what can be asked of a draft.
* `Draft.apply`, `Draft.run`: the draft after one operation and after many.
* `Draft.warnings`, `Draft.trace`: what is worth a line in a log meanwhile. -/

namespace WebAcl

/-- An IP set that is to be created, and the token that stands for it in a rule until then. -/
structure PendingIpSet where
  token : String
  spec : IpSetSpec
  deriving DecidableEq

/-- What was asked for so far. -/
structure Draft where
  config : Config
  countRules : List Rule
  blockRules : List Rule
  bodies : KeyTable ResponseBody
  pending : List PendingIpSet

/-- Something to ask of a draft. -/
inductive Operation where
  /-- The selected managed groups, less the excluded rules. -/
  | managedRules (selection : Selection) (exclusions : Exclusions)
  /-- Requests from these addresses are blocked. -/
  | ipRestriction (addresses : List String)
  /-- A throttle; its action decides which queue it joins. -/
  | throttle (name : String) (limit : UInt64) (condition : HeaderCondition) (key : RateKey)
      (action : ThrottleAction)
  /-- A response body, in place of the one that was there. -/
  | responseBody (key : String) (body : ResponseBody)
  /-- A named throttle with its limit, or without a limit, which asks for nothing. -/
  | preset (preset : Preset) (limit : Option UInt64)

/-- All managed groups, and nothing excluded but the standing exclusions. -/
def Operation.allManagedRules : Operation := .managedRules .all .none

namespace Draft

/-- The draft of a list with this configuration and nothing else. -/
def new (config : Config) : Draft := ⟨config, [], [], .empty, []⟩

/-- How many rules were asked for. -/
def ruleCount (draft : Draft) : Nat := draft.countRules.length + draft.blockRules.length

/-- The rules in the order in which they are tried: those that count, then those that block. -/
def rules (draft : Draft) : List Rule := draft.countRules ++ draft.blockRules

/-- The draft with a rule at the end of a queue. -/
def enqueue (draft : Draft) (rule : Rule) : Queue → Draft
  | .count => { draft with countRules := draft.countRules ++ [rule] }
  | .block => { draft with blockRules := draft.blockRules ++ [rule] }

/-- The token of the IP set that is asked for after `place` others. -/
def pendingToken (place : Nat) : String := "pending:ip-set:" ++ Text.decimal place

/-- The identifier of the blocklist's IP set. -/
def blocklistId : String := "BlocklistIpSet"

/-- The rule that blocks the addresses of an IP set. -/
def blocklistRule (arn : String) : Rule where
  name := "IpBlocklist"
  verdict := .block none
  statement := .ipSet arn
  visibility := .metricsOnly "IpBlocklist"

/-- The IP set of a blocklist for these addresses. -/
def blocklistSpec (config : Config) (addresses : List String) : IpSetSpec :=
  ⟨blocklistId, config.scope, config.addressVersion, addresses⟩

/-- The draft with a named throttle. A response body for the limit is registered unless there is one
under its key. -/
def addPreset (draft : Draft) (preset : Preset) (limit : UInt64) : Draft :=
  let draft :=
    match preset.body? limit with
    | some (key, body) => { draft with bodies := draft.bodies.insertNew key body }
    | none => draft
  draft.enqueue (preset.rule limit draft.config.userHeader) preset.queue

/-- The draft after an operation. -/
def apply (draft : Draft) : Operation → Draft
  | .managedRules selection exclusions =>
    { draft with
      blockRules := draft.blockRules ++
        selection.groups.map fun group => group.rule (exclusions.names group) }
  | .ipRestriction addresses =>
    let token := pendingToken draft.pending.length
    { draft with
      pending := draft.pending ++ [⟨token, blocklistSpec draft.config addresses⟩]
      blockRules := draft.blockRules ++ [blocklistRule token] }
  | .throttle name limit condition key action =>
    draft.enqueue (Throttle.rule name limit condition key action draft.config.userHeader)
      action.queue
  | .responseBody key body => { draft with bodies := draft.bodies.insert key body }
  | .preset preset (some limit) => draft.addPreset preset limit
  | .preset _ none => draft

/-- What is worth a line in a log when an operation is applied. -/
def warnings (draft : Draft) : Operation → List Event
  | .responseBody key _ =>
    if draft.bodies.contains key then [.bodyReplaced draft.config.name key] else []
  | .preset preset none => [.limitMissing preset draft.config.name]
  | _ => []

/-- The draft after many operations. -/
def run (draft : Draft) (operations : List Operation) : Draft := operations.foldl apply draft

/-- What is worth a line in a log when many operations are applied. -/
def trace (draft : Draft) : List Operation → List Event
  | [] => []
  | operation :: operations =>
    draft.warnings operation ++ (draft.apply operation).trace operations

/-- What is asked for in two parts is asked for one part after the other. -/
theorem run_append (draft : Draft) (first second : List Operation) :
    draft.run (first ++ second) = (draft.run first).run second := List.foldl_append

theorem trace_append (draft : Draft) (first second : List Operation) :
    draft.trace (first ++ second) = draft.trace first ++ (draft.run first).trace second := by
  induction first generalizing draft with
  | nil => rfl
  | cons operation first ih =>
    rw [List.cons_append, trace, trace, ih, List.append_assoc]
    rfl

end Draft

end WebAcl
