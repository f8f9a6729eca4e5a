import WebAcl.Template

/-! # Intents

A document that says what an access list is for. Its parts are turned into operations on a draft in
a fixed order: response bodies by key, managed groups, the blocklist, and the eight named throttles,
so that a declared body is kept by the throttle that would register one under its key.

* `Intents.operations`, `Intents.draft`: the draft of a document.
* `Intents.template`: the list and its IP sets, built from nothing else. -/

namespace WebAcl

/-- The managed groups that are wanted. -/
structure ManagedIntent where
  selection : Selection
  exclusions : Exclusions

namespace ManagedIntent

/-- All groups, nothing excluded. -/
def default : ManagedIntent := ⟨.all, .none⟩

end ManagedIntent

/-- The limits of the eight named throttles. -/
structure ThrottleLimits where
  limit : Preset → Option UInt64

namespace ThrottleLimits

/-- No throttle is wanted. -/
def none : ThrottleLimits := ⟨fun _ => .none⟩

/-- The limits with one of them replaced. -/
def insert (limits : ThrottleLimits) (preset : Preset) (limit : Option UInt64) : ThrottleLimits :=
  ⟨fun other => if other = preset then limit else limits.limit other⟩

/-- The limits in the order of a document. -/
def toList (limits : ThrottleLimits) : List (Option UInt64) := Preset.all.map limits.limit

end ThrottleLimits

/-- What an access list is for. -/
structure Intents where
  config : Config
  managed : Option ManagedIntent
  blocklist : Option (List String)
  throttle : ThrottleLimits
  bodies : KeyTable ResponseBody

namespace Intents

/-- A list with the default configuration and no rules. -/
def default : Intents := ⟨.default, none, none, .none, .empty⟩

/-- What a document asks of a draft, in order. -/
def operations (intents : Intents) : List Operation :=
  (intents.bodies.entries.map fun (key, body) => .responseBody key body) ++
    (intents.managed.toList.map fun managed =>
      .managedRules managed.selection managed.exclusions) ++
    intents.blocklist.toList.map .ipRestriction ++
    Preset.all.map fun preset => .preset preset (intents.throttle.limit preset)

/-- The draft of a document. -/
def draft (intents : Intents) : Draft := (Draft.new intents.config).run intents.operations

/-- What is worth a line in a log while the draft is made. -/
def trace (intents : Intents) : List Event := (Draft.new intents.config).trace intents.operations

/-- The template of a document: its list, built over an empty register, with the IP sets that were
recorded meanwhile. -/
def template (intents : Intents) : Outcome Register Template :=
  let outcome := intents.draft.build Register.create []
  { result := outcome.result.map fun acl => ⟨outcome.state, acl⟩
    state := outcome.state
    events := intents.trace ++ outcome.events }

end Intents

end WebAcl
