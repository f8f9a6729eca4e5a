import WebAcl.Rule

/-! # References within statements

A statement holds at most one reference to an IP set, below its negations and rate limits. `parts`
lists a statement with everything below it, so that "at any depth" can be said of it, and
`withReference` puts another reference where the old one stood. A visit is the visitor at that one
reference (`visit_eq`), and the other fields of a rule do not see it. -/

namespace WebAcl

namespace Statement

variable {σ ε : Type}

/-! ### The parts of a statement -/

/-- The statement and the statements below it, from the outside in. -/
def parts : Statement → List Statement
  | .managedGroup group => [.managedGroup group]
  | .ipSet arn => [.ipSet arn]
  | .sizeBound bound => [.sizeBound bound]
  | .not statement => .not statement :: statement.parts
  | .rateBased rate scopeDown => .rateBased rate scopeDown :: scopeDown.parts

/-- The reference that a statement has at some depth is the one at its leaf. -/
theorem ipSet_mem_parts {statement : Statement} {arn : String} :
    .ipSet arn ∈ statement.parts ↔ statement.reference? = some arn := by
  induction statement with
  | managedGroup group => simp [parts, reference?, innermost]
  | ipSet other => simp [parts, reference?, innermost, eq_comm]
  | sizeBound bound => simp [parts, reference?, innermost]
  | not statement ih =>
    rw [parts, List.mem_cons, ih]
    simp [reference?, innermost]
  | rateBased rate scopeDown ih =>
    rw [parts, List.mem_cons, ih]
    simp [reference?, innermost]

/-- The references of a statement, at any depth. -/
def references (statement : Statement) : List String :=
  statement.parts.filterMap fun
    | .ipSet arn => some arn
    | _ => none

theorem references_eq (statement : Statement) :
    statement.references = statement.reference?.toList := by
  induction statement with
  | managedGroup group => rfl
  | ipSet arn => rfl
  | sizeBound bound => rfl
  | not statement ih => exact ih
  | rateBased rate scopeDown ih => exact ih

/-! ### Another reference in place of the old one -/

/-- The statement with its reference, if it has one, replaced. -/
def withReference (arn : String) : Statement → Statement
  | .managedGroup group => .managedGroup group
  | .ipSet _ => .ipSet arn
  | .sizeBound bound => .sizeBound bound
  | .not statement => .not (statement.withReference arn)
  | .rateBased rate scopeDown => .rateBased rate (scopeDown.withReference arn)

theorem reference?_withReference (arn : String) (statement : Statement) :
    (statement.withReference arn).reference? = statement.reference?.map fun _ => arn := by
  induction statement with
  | managedGroup group => rfl
  | ipSet other => rfl
  | sizeBound bound => rfl
  | not statement ih => exact ih
  | rateBased rate scopeDown ih => exact ih

/-- A statement without a reference has nothing to replace. -/
theorem withReference_of_none (arn : String) {statement : Statement}
    (h : statement.reference? = none) : statement.withReference arn = statement := by
  induction statement with
  | managedGroup group => rfl
  | ipSet other => cases h
  | sizeBound bound => rfl
  | not statement ih => rw [withReference, ih h]
  | rateBased rate scopeDown ih => rw [withReference, ih h]

/-- **A visit** takes the visitor to the reference and leaves everything around it alone. -/
theorem visit_eq (visitor : Visitor σ ε) (statement : Statement) (state : σ) :
    statement.visit visitor state =
      match statement.reference? with
      | none => ⟨statement, .ok (), state⟩
      | some arn => (visitor arn state).map fun left => statement.withReference left := by
  induction statement with
  | managedGroup group => rfl
  | ipSet arn => rfl
  | sizeBound bound => rfl
  | not statement ih =>
    have href : (Statement.not statement).reference? = statement.reference? := rfl
    rw [visit, ih, href]
    cases statement.reference? <;> rfl
  | rateBased rate scopeDown ih =>
    have href : (Statement.rateBased rate scopeDown).reference? = scopeDown.reference? := rfl
    rw [visit, ih, href]
    cases scopeDown.reference? <;> rfl

end Statement

/-! ### Rules -/

namespace Rule

/-- The rule with the reference of its statement, if it has one, replaced. -/
def withReference (arn : String) (rule : Rule) : Rule :=
  { rule with statement := rule.statement.withReference arn }

theorem withReference_of_none (arn : String) {rule : Rule}
    (h : rule.statement.reference? = none) : rule.withReference arn = rule := by
  rw [withReference, Statement.withReference_of_none arn h]

theorem map_withReference_of_none (arn : String) {rules : List Rule}
    (h : ∀ rule ∈ rules, rule.statement.reference? = none) :
    rules.map (·.withReference arn) = rules :=
  (List.map_congr_left fun rule hrule => withReference_of_none arn (h rule hrule)).trans
    (List.map_id _)

end Rule

end WebAcl
