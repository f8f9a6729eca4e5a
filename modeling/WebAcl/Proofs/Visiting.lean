import WebAcl.Proofs.Reference

/-! # Visits

A statement is a leaf inside layers of negations and rate limits. A visit goes through the layers to
the leaf, takes the visitor to it if it is a reference, and puts the layers back around whatever the
visitor leaves. The calls are observed by a visitor that does what another one does and keeps a log
of the references that it was given; the log changes nothing else.

* `Layer`, `Statement.inside`: what stands around a statement.
* `Statement.visit_inside`: a visit does not see the layers.
* `Statement.visit_andThen`: two visits come to one.
* `Statement.visit_leaf`: what a visit does at the leaf, and that it does nothing else. -/

namespace WebAcl

variable {σ ε α : Type}

/-! ### Visits in a row -/

/-- A visit and then, unless it failed, another one of what it left. -/
def Visit.andThen (visit : Visit σ ε α) (next : α → σ → Visit σ ε α) : Visit σ ε α :=
  match visit.ended with
  | .ok () => next visit.left visit.state
  | .error _ => visit

/-- What stands around a visit stands around both visits in a row. -/
theorem Visit.map_andThen {β : Type} (f : α → β) {visit : Visit σ ε α} {next : α → σ → Visit σ ε α}
    {next' : β → σ → Visit σ ε β} (h : ∀ a state, (next a state).map f = next' (f a) state) :
    (visit.andThen next).map f = (visit.map f).andThen next' := by
  obtain ⟨left, ended, state⟩ := visit
  cases ended with
  | ok _ => exact h left state
  | error _ => rfl

namespace Visitor

/-- The visitor with a log of the references that it is given. -/
def logged (visitor : Visitor σ ε) : Visitor (σ × List String) ε := fun arn (state, given) =>
  let visit := visitor arn state
  ⟨visit.left, visit.ended, (visit.state, given ++ [arn])⟩

end Visitor

/-- The visit without the log. -/
def Visit.forget (visit : Visit (σ × List String) ε α) : Visit σ ε α :=
  ⟨visit.left, visit.ended, visit.state.1⟩

/-! ### Layers -/

/-- What may stand around a statement. -/
inductive Layer where
  | not
  | rateBased (rate : Rate)

/-- The statement with a layer around it. -/
def Layer.around (statement : Statement) : Layer → Statement
  | .not => .not statement
  | .rateBased rate => .rateBased rate statement

namespace Statement

/-- The statement with layers around it, the first of them outermost. -/
def inside (layers : List Layer) (statement : Statement) : Statement :=
  layers.foldr (fun layer statement => layer.around statement) statement

/-- The layers around the leaf of a statement, from the outside in. -/
def layers : Statement → List Layer
  | .not statement => .not :: statement.layers
  | .rateBased rate scopeDown => .rateBased rate :: scopeDown.layers
  | _ => []

/-- A statement is its leaf inside its layers. -/
theorem inside_layers (statement : Statement) :
    inside statement.layers statement.innermost = statement := by
  induction statement with
  | managedGroup group => rfl
  | ipSet arn => rfl
  | sizeBound bound => rfl
  | not statement ih => exact congrArg Statement.not ih
  | rateBased rate scopeDown ih => exact congrArg (Statement.rateBased rate) ih

/-- The leaf has no layers of its own. -/
theorem layers_innermost (statement : Statement) : statement.innermost.layers = [] := by
  induction statement with
  | managedGroup group => rfl
  | ipSet arn => rfl
  | sizeBound bound => rfl
  | not statement ih => exact ih
  | rateBased rate scopeDown ih => exact ih

/-! ### Visits of nested statements -/

variable (visitor next : Visitor σ ε)

theorem visit_around (layer : Layer) (statement : Statement) (state : σ) :
    (layer.around statement).visit visitor state =
      (statement.visit visitor state).map layer.around := by
  cases layer <;> rfl

/-- A visit of a statement inside layers is a visit of the statement, with the layers put back. -/
theorem visit_inside (layers : List Layer) (statement : Statement) (state : σ) :
    (inside layers statement).visit visitor state =
      (statement.visit visitor state).map (inside layers) := by
  induction layers with
  | nil => rfl
  | cons layer layers ih =>
    have hinside : inside (layer :: layers) statement = layer.around (inside layers statement) :=
      rfl
    rw [hinside, visit_around, ih]
    rfl

theorem visit_eq_inside (statement : Statement) (state : σ) :
    statement.visit visitor state =
      (statement.innermost.visit visitor state).map (inside statement.layers) := by
  have h := visit_inside visitor statement.layers statement.innermost state
  rwa [inside_layers] at h

/-- A leaf that is no reference is left alone. -/
theorem visit_of_layers_eq_nil {leaf : Statement} (hleaf : leaf.layers = [])
    (h : ∀ arn, leaf ≠ .ipSet arn) (state : σ) :
    leaf.visit visitor state = ⟨leaf, .ok (), state⟩ := by
  cases leaf with
  | managedGroup group => rfl
  | ipSet arn => exact absurd rfl (h arn)
  | sizeBound bound => rfl
  | not statement => cases hleaf
  | rateBased rate scopeDown => cases hleaf

/-- **Two visits in a row come to one** in which the second visitor follows the first, and the first
failure of either ends both. -/
theorem visit_andThen (statement : Statement) (state : σ) :
    statement.visit (visitor.andThen next) state =
      (statement.visit visitor state).andThen fun left => left.visit next := by
  induction statement with
  | managedGroup group => rfl
  | ipSet arn => exact Visit.map_andThen Statement.ipSet fun _ _ => rfl
  | sizeBound bound => rfl
  | not statement ih =>
    rw [visit, ih]
    exact Visit.map_andThen Statement.not fun _ _ => rfl
  | rateBased rate scopeDown ih =>
    rw [visit, ih]
    exact Visit.map_andThen (Statement.rateBased rate) fun _ _ => rfl

/-! ### The calls of a visitor -/

/-- The references that the visitor is given in the course of a visit, in order. -/
def given (statement : Statement) (state : σ) : List String :=
  (statement.visit visitor.logged (state, [])).state.2

/-- **The log changes nothing**: what is left, how the visit ends and the state are those without
it. -/
theorem visit_logged (statement : Statement) (state : σ) (log : List String) :
    statement.visit visitor state = (statement.visit visitor.logged (state, log)).forget := by
  induction statement with
  | managedGroup group => rfl
  | ipSet arn => rfl
  | sizeBound bound => rfl
  | not statement ih =>
    rw [visit, ih]
    rfl
  | rateBased rate scopeDown ih =>
    rw [visit, ih]
    rfl

theorem given_eq (statement : Statement) (state : σ) :
    statement.given visitor state = statement.innermost.given visitor state := by
  rw [given, visit_eq_inside]
  rfl

/-- **What a visit does.** A statement is a leaf inside layers. If the leaf is a reference, the
visitor is called once, with this reference; the layers are put back around what it leaves, and its
end and its state are those of the visit, so a failure that changes nothing leaves the statement as
it was. Otherwise the visitor is not called. A visit by one visitor and then by another is one visit
by both. -/
theorem visit_leaf (statement : Statement) (state : σ) :
    (inside statement.layers statement.innermost = statement ∧ statement.innermost.layers = []) ∧
    (∀ log, statement.visit visitor state =
      (statement.visit visitor.logged (state, log)).forget) ∧
    (∀ arn, statement.innermost = .ipSet arn →
      statement.given visitor state = [arn] ∧
      statement.visit visitor state =
        (visitor arn state).map (fun left => inside statement.layers (.ipSet left)) ∧
      ∀ error, (visitor arn state).ended = .error error → (visitor arn state).left = arn →
        statement.visit visitor state = ⟨statement, .error error, (visitor arn state).state⟩) ∧
    ((∀ arn, statement.innermost ≠ .ipSet arn) →
      statement.given visitor state = [] ∧
      statement.visit visitor state = ⟨statement, .ok (), state⟩) ∧
    statement.visit (visitor.andThen next) state =
      (statement.visit visitor state).andThen fun left => left.visit next := by
  have hparts := And.intro statement.inside_layers statement.layers_innermost
  refine ⟨hparts, statement.visit_logged visitor state, fun arn harn => ?_, fun hother => ?_,
    statement.visit_andThen visitor next state⟩
  · have hgiven : statement.given visitor state = [arn] := by
      rw [given_eq, harn]
      rfl
    have hvisit : statement.visit visitor state =
        (visitor arn state).map (fun left => inside statement.layers (.ipSet left)) := by
      rw [visit_eq_inside, harn]
      rfl
    refine ⟨hgiven, hvisit, fun error herror hleft => ?_⟩
    have hsame : inside statement.layers (.ipSet (visitor arn state).left) = statement := by
      rw [hleft, ← harn, hparts.1]
    rw [hvisit, Visit.map, hsame, herror]
  · have hleaf := visit_of_layers_eq_nil visitor hparts.2 hother state
    have hlogged := visit_of_layers_eq_nil visitor.logged hparts.2 hother (state, [])
    refine ⟨?_, ?_⟩
    · rw [given_eq, given, hlogged]
    · rw [visit_eq_inside, hleaf, Visit.map, hparts.1]

end Statement

end WebAcl
