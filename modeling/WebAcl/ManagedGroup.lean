import WebAcl.Rule

/-! # Managed rule groups

Four groups of rules that the vendor maintains. A list takes all of them or a selection, always in
one order, and may exclude rules of a group; some noisy rules are always excluded.

* `ManagedGroup.excludedNames`: the standing exclusions, then the caller's, each once.
* `Selection.groups`: what was selected, in the fixed order. -/

namespace WebAcl

/-- A group of rules that the vendor maintains. -/
inductive ManagedGroup where
  | common
  | ipReputation
  | knownBadInputs
  | sqlInjection
  deriving DecidableEq

namespace ManagedGroup

/-- The groups in the order in which they enter a list. -/
def all : List ManagedGroup := [.common, .ipReputation, .knownBadInputs, .sqlInjection]

/-- The short name of a group, used in documents. -/
def label : ManagedGroup → String
  | .common => "CommonRuleSet"
  | .ipReputation => "AmazonIpReputationList"
  | .knownBadInputs => "KnownBadInputsRuleSet"
  | .sqlInjection => "SQLiRuleSet"

/-- The groups with their short names. -/
def labelled : List (String × ManagedGroup) := all.map fun group => (group.label, group)

/-- The vendor of the groups. -/
def vendor : String := "AWS"

/-- The vendor's name of a group. -/
def vendorName (group : ManagedGroup) : String := "AWSManagedRules" ++ group.label

/-- The name of the rule that stands for a group in a list. -/
def ruleName (group : ManagedGroup) : String := vendor ++ "-" ++ group.vendorName

/-- The rules of a group that are always excluded, because they stop too many good requests. -/
def standingExclusions : ManagedGroup → List String
  | .common => ["NoUserAgent_HEADER", "SizeRestrictions_BODY", "GenericRFI_BODY"]
  | _ => []

/-- The standing exclusions and then the caller's, each name once where it first occurs. -/
def excludedNames (group : ManagedGroup) (callers : List String) : List String :=
  (group.standingExclusions ++ callers).eraseDups

/-- The rule that stands for a group: the group decides, less the excluded rules. -/
def rule (group : ManagedGroup) (callers : List String) : Rule where
  name := group.ruleName
  verdict := .group
  statement := .managedGroup ⟨vendor, group.vendorName, group.excludedNames callers⟩
  visibility := .sampled group.ruleName

end ManagedGroup

/-- All groups, or those of a list. -/
inductive Selection where
  | all
  | only (groups : List ManagedGroup)
  deriving DecidableEq

namespace Selection

/-- Whether a group was selected. -/
def includes : Selection → ManagedGroup → Bool
  | .all, _ => true
  | .only groups, group => groups.contains group

/-- The selected groups, each once and in the fixed order. -/
def groups (selection : Selection) : List ManagedGroup :=
  ManagedGroup.all.filter selection.includes

end Selection

/-- The rules that a caller excludes, by group; a group may have no entry. -/
structure Exclusions where
  entry : ManagedGroup → Option (List String)

namespace Exclusions

/-- Nothing is excluded. -/
def none : Exclusions := ⟨fun _ => .none⟩

/-- The exclusions with the entry of one group replaced. -/
def insert (exclusions : Exclusions) (group : ManagedGroup) (names : List String) : Exclusions :=
  ⟨fun other => if other = group then some names else exclusions.entry other⟩

/-- The rules excluded from a group. -/
def names (exclusions : Exclusions) (group : ManagedGroup) : List String :=
  (exclusions.entry group).getD []

/-- The entries in the fixed order of the groups. -/
def entries (exclusions : Exclusions) : List (ManagedGroup × List String) :=
  ManagedGroup.all.filterMap fun group => (exclusions.entry group).map (group, ·)

end Exclusions

end WebAcl
