import WebAcl.AclError
import WebAcl.Event

/-! # IP sets and who creates them

A blocklist needs an IP set, which is created outside the list. Whoever creates it, a template or a
cloud, is a provisioner: it gets a specification and gives the reference by which rules know the set.

* `Provisioner`: creates IP sets, one after the other, over a state of its own.
* `Register.create`: the provisioner of a template, which records the specification and refuses a
  second set under the same identifier. -/

namespace WebAcl

/-- The IP set that is wanted. -/
structure IpSetSpec where
  logicalId : String
  scope : Scope
  addressVersion : AddressVersion
  addresses : List String
  deriving DecidableEq

/-- The outcome of an activity: its result, the state it leaves, and what happened meanwhile. -/
structure Outcome (σ α : Type) where
  result : Except AclError α
  state : σ
  events : List Event

/-- Creates an IP set and gives its reference. -/
abbrev Provisioner (σ : Type) := IpSetSpec → σ → Outcome σ String

/-- The IP sets of a template, in the order in which they were asked for. -/
abbrev Register := List IpSetSpec

namespace Register

/-- The template's reference to the set of an identifier. -/
def reference (logicalId : String) : String := "$\x7b" ++ logicalId ++ ".Arn\x7d"

/-- A reference names its identifier. -/
@[simp] theorem reference_inj {first second : String} :
    reference first = reference second ↔ first = second := by
  rw [reference, reference, String.append_left_inj, String.append_right_inj]

/-- Records an IP set, unless there is one under the same identifier. -/
def create : Provisioner Register := fun spec register =>
  if register.any (·.logicalId = spec.logicalId) then
    ⟨.error (.provision ("模板中已存在 IP 集合 " ++ spec.logicalId)), register, []⟩
  else
    ⟨.ok (reference spec.logicalId), register ++ [spec],
      [.ipSetRecorded spec.logicalId spec.addresses.length]⟩

end Register

end WebAcl
