/-! # Match statements

What a rule looks for in a request. A statement is a leaf (a managed group, a reference to an IP
set, a bound on the size of a header) below any number of negations and rate limits, so it holds at
most one reference to an IP set.

* `Statement.visit`: gives the reference to a visitor and puts back what the visitor leaves. -/

namespace WebAcl

/-- How the size of a header is compared with the bound. -/
inductive Comparison where
  | greater
  | atLeast
  deriving DecidableEq

/-- A change made to a text before it is looked at. -/
inductive Transformation where
  | none
  | lowercase
  | normalizePath
  | md5
  deriving DecidableEq

/-- A transformation with its place among the others. -/
structure TransformationStep where
  priority : UInt32
  kind : Transformation
  deriving DecidableEq

/-- The rules of a vendor's group, less the excluded ones. -/
structure GroupReference where
  vendor : String
  name : String
  excluded : List String
  deriving DecidableEq

/-- A bound on the size of one request header. -/
structure SizeBound where
  comparison : Comparison
  header : String
  transformations : List TransformationStep
  size : UInt64
  deriving DecidableEq

/-- Whether requests are counted by client address or by a list of keys. -/
inductive Aggregation where
  | ip
  | customKeys
  deriving DecidableEq

/-- One of the keys by which requests are counted. -/
inductive CustomKey where
  | uriPath (transformations : List TransformationStep)
  | ip
  deriving DecidableEq

/-- How many requests with the same key are let through within a window of seconds. -/
structure Rate where
  aggregation : Aggregation
  customKeys : Option (List CustomKey)
  limit : UInt64
  window : UInt32
  deriving DecidableEq

/-- A condition on a request. -/
inductive Statement where
  | managedGroup (group : GroupReference)
  | ipSet (arn : String)
  | sizeBound (bound : SizeBound)
  | not (statement : Statement)
  | rateBased (rate : Rate) (scopeDown : Statement)
  deriving DecidableEq

/-- The outcome of a visit: what stands there afterwards, how the visit ended, and the state of the
visitor. -/
structure Visit (σ ε α : Type) where
  left : α
  ended : Except ε Unit
  state : σ

/-- The same visit, seen from around what was visited. -/
def Visit.map {σ ε α β : Type} (f : α → β) (visit : Visit σ ε α) : Visit σ ε β :=
  ⟨f visit.left, visit.ended, visit.state⟩

/-- What is done at a reference to an IP set: the visitor leaves a reference in its place. -/
abbrev Visitor (σ ε : Type) := String → σ → Visit σ ε String

namespace Visitor

variable {σ ε : Type}

/-- First one visitor, then, unless it failed, another one on what the first one left. -/
def andThen (first second : Visitor σ ε) : Visitor σ ε := fun arn state =>
  let visit := first arn state
  match visit.ended with
  | .ok () => second visit.left visit.state
  | .error _ => visit

end Visitor

namespace Statement

variable {σ ε : Type}

/-- The statement with its reference, if it has one, as the visitor leaves it. -/
def visit (visitor : Visitor σ ε) : Statement → σ → Visit σ ε Statement
  | .ipSet arn, state => (visitor arn state).map .ipSet
  | .not statement, state => (statement.visit visitor state).map .not
  | .rateBased rate scopeDown, state => (scopeDown.visit visitor state).map (.rateBased rate)
  | .managedGroup group, state => ⟨.managedGroup group, .ok (), state⟩
  | .sizeBound bound, state => ⟨.sizeBound bound, .ok (), state⟩

/-- The statement below all negations and rate limits. -/
def innermost : Statement → Statement
  | .not statement => statement.innermost
  | .rateBased _ scopeDown => scopeDown.innermost
  | leaf => leaf

/-- The reference to an IP set, if the statement has one. -/
def reference? (statement : Statement) : Option String :=
  match statement.innermost with
  | .ipSet arn => some arn
  | _ => none

end Statement

end WebAcl
