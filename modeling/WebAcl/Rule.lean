import WebAcl.Config
import WebAcl.Statement
import WebAcl.Text.Decimal

/-! # Rules

A rule says what happens to the requests that its statement matches. Once its place in the list is
settled it has a priority.

* `Rule.responseKey?`: the response body that a blocking rule names.
* `RankedRule.row`: a line of the rule table. -/

namespace WebAcl

/-- The status code and the page that a blocked client gets. -/
structure CustomResponse where
  code : UInt16
  bodyKey : String
  deriving DecidableEq

/-- What happens to a matching request; a managed group decides for itself. -/
inductive Verdict where
  | allow
  | block (response : Option CustomResponse)
  | count
  | group
  deriving DecidableEq

/-- The word for a verdict in the rule table. -/
def Verdict.word : Verdict → String
  | .allow => "allow"
  | .block _ => "block"
  | .count => "count"
  | .group => "group"

/-- A rule that has no place in a list yet. -/
structure Rule where
  name : String
  verdict : Verdict
  statement : Statement
  visibility : Visibility
  deriving DecidableEq

namespace Rule

/-- The key of the response body that the rule names. -/
def responseKey? (rule : Rule) : Option String :=
  match rule.verdict with
  | .block (some response) => some response.bodyKey
  | _ => none

theorem responseKey?_eq_some {rule : Rule} {key : String} :
    rule.responseKey? = some key ↔ ∃ code, rule.verdict = .block (some ⟨code, key⟩) := by
  unfold responseKey?
  split
  · next response h =>
    obtain ⟨code, bodyKey⟩ := response
    simp [h]
  · next hother => simpa using fun code h => hother _ h

/-- Whether the rule blocks what it matches. -/
def isBlock (rule : Rule) : Bool :=
  match rule.verdict with
  | .block _ => true
  | _ => false

/-- Only a rule that blocks names a response body. -/
theorem isBlock_of_responseKey? {rule : Rule} {key : String} (h : rule.responseKey? = some key) :
    rule.isBlock = true := by
  obtain ⟨code, hverdict⟩ := responseKey?_eq_some.mp h
  rw [isBlock, hverdict]

/-- Whether the rule only counts what it matches. -/
def isCount (rule : Rule) : Bool :=
  match rule.verdict with
  | .count => true
  | _ => false

end Rule

/-- A rule with its place in a list; the lowest priority is tried first. -/
structure RankedRule where
  priority : UInt32
  rule : Rule
  deriving DecidableEq

namespace RankedRule

/-- The rules in the given order, with priorities from `first` on. -/
def rankFrom (first : Nat) (rules : List Rule) : List RankedRule :=
  (rules.zipIdx first).map fun (rule, place) => ⟨UInt32.ofNat place, rule⟩

/-- The rules in the given order, with priorities from zero on. -/
def rank (rules : List Rule) : List RankedRule := rankFrom 0 rules

@[simp] theorem length_rank (rules : List Rule) : (rank rules).length = rules.length := by
  simp [rank, rankFrom]

/-- Ranking leaves the rules and their order alone. -/
@[simp] theorem map_rule_rank (rules : List Rule) : (rank rules).map (·.rule) = rules := by
  rw [rank, rankFrom, List.map_map]
  exact List.zipIdx_map_fst 0 rules

theorem rule_mem_of_mem_rank {rules : List Rule} {ranked : RankedRule} (h : ranked ∈ rank rules) :
    ranked.rule ∈ rules := by
  rw [← map_rule_rank rules]
  exact List.mem_map_of_mem h

/-- A rule's priority is its place. -/
theorem getElem?_rank_eq_some {rules : List Rule} {i : Nat} {ranked : RankedRule} :
    (rank rules)[i]? = some ranked ↔
      ∃ rule, rules[i]? = some rule ∧ ranked = ⟨UInt32.ofNat i, rule⟩ := by
  rw [rank, rankFrom, List.getElem?_map, List.getElem?_zipIdx, Option.map_map, Nat.zero_add,
    Option.map_eq_some_iff]
  exact exists_congr fun rule => and_congr_right fun _ => eq_comm

/-- The line of the rule table: priority, verdict, name. -/
def row (ranked : RankedRule) : String :=
  Text.alignRight 3 (Text.decimal ranked.priority.toNat) ++ "  " ++
    Text.alignLeft 12 ranked.rule.verdict.word ++ " " ++ ranked.rule.name

end RankedRule

end WebAcl
