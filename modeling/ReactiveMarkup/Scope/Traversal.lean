import ReactiveMarkup.Scope.Tree
import ReactiveMarkup.Script.Tree

/-!
# Traversal with scopes

Two traversals show the expressions of a script to a visitor, from the outside in and in source
order, each with the scope that it stands in. `walk` only looks; `transform` may replace an
expression by another, whose parts are then not shown. Both keep a stack of the scopes around the
current place: a function or block enters its scope on the way in and leaves it on the way out.

A visitor has a state of its own, which is threaded through its calls.
-/

namespace ReactiveMarkup

open Script (Expression Target Function Body Statement Declarator)

/-- The scopes around a place, innermost first. -/
structure ScopeStack where
  scopes : List ScopeId
deriving DecidableEq, Repr

namespace ScopeStack

/-- The stack at the top level. -/
def start : ScopeStack := ⟨[rootScope]⟩

/-- The innermost scope. -/
def current (stack : ScopeStack) : ScopeId := stack.scopes.headD rootScope

/-- Enters the scope of a node. A node without a scope stays in the current one. -/
def enter (stack : ScopeStack) (tree : ScopeTree) (node : Nat) : ScopeStack :=
  ⟨(tree.scopeOf? node).getD stack.current :: stack.scopes⟩

/-- Leaves the innermost scope. -/
def leave (stack : ScopeStack) : ScopeStack := ⟨stack.scopes.tail⟩

@[simp] theorem leave_enter (stack : ScopeStack) (tree : ScopeTree) (node : Nat) :
    (stack.enter tree node).leave = stack := rfl

end ScopeStack

/-- What a traversal carries along: the stack and the state of the visitor. -/
structure Trail (σ : Type) where
  stack : ScopeStack
  state : σ

namespace Trail

variable {σ : Type}

/-- Enters the scope of a node. -/
def enter (trail : Trail σ) (tree : ScopeTree) (node : Nat) : Trail σ :=
  { trail with stack := trail.stack.enter tree node }

/-- Leaves the innermost scope. -/
def leave (trail : Trail σ) : Trail σ := { trail with stack := trail.stack.leave }

end Trail

/-! ## Looking -/

section Walk

variable {σ : Type} (tree : ScopeTree) (visit : Expression → ScopeId → σ → σ)

mutual

/-- Shows an expression and its parts. -/
def walkExpression (e : Expression) (trail : Trail σ) : Trail σ :=
  let seen : Trail σ := { trail with state := visit e trail.stack.current trail.state }
  match e with
  | .identifier _ => seen
  | .binary left _ right => walkExpression right (walkExpression left seen)
  | .assignment _ (.member object _) right => walkExpression right (walkExpression object seen)
  | .assignment _ (.identifier _) right => walkExpression right seen
  | .assignment _ (.verbatim _ _) right => walkExpression right seen
  | .update _ _ (.member object _) => walkExpression object seen
  | .update _ _ (.identifier _) => seen
  | .update _ _ (.verbatim _ _) => seen
  | .call callee arguments _ => walkExpressions arguments (walkExpression callee seen)
  | .member object _ _ => walkExpression object seen
  | .parenthesized inner => walkExpression inner seen
  | .sequence items => walkExpressions items seen
  | .function f => walkFunction f seen
  | .verbatim _ _ => seen
termination_by structural e

/-- Shows some expressions. -/
def walkExpressions (es : List Expression) (trail : Trail σ) : Trail σ :=
  match es with
  | [] => trail
  | e :: rest => walkExpressions rest (walkExpression e trail)
termination_by structural es

/-- Shows the expressions of a function in its scope. -/
def walkFunction (f : Function) (trail : Trail σ) : Trail σ :=
  match f with
  | ⟨id, _, .block body⟩ => (walkStatements body (trail.enter tree id)).leave
  | ⟨id, _, .expression value⟩ => (walkExpression value (trail.enter tree id)).leave
termination_by structural f

/-- Shows the expressions of a statement. -/
def walkStatement (s : Statement) (trail : Trail σ) : Trail σ :=
  match s with
  | .declaration _ items => walkDeclarators items trail
  | .function f => walkFunction f trail
  | .expression e => walkExpression e trail
  | .block id body => (walkStatements body (trail.enter tree id)).leave
  | .conditional test consequent none => walkStatement consequent (walkExpression test trail)
  | .conditional test consequent (some alternate) =>
    walkStatement alternate (walkStatement consequent (walkExpression test trail))
  | .result none => trail
  | .result (some value) => walkExpression value trail
  | .labeled _ body => walkStatement body trail
  | .verbatim _ _ => trail
termination_by structural s

/-- Shows the expressions of some statements. -/
def walkStatements (ss : List Statement) (trail : Trail σ) : Trail σ :=
  match ss with
  | [] => trail
  | s :: rest => walkStatements rest (walkStatement s trail)
termination_by structural ss

/-- Shows the initial values of some bindings. -/
def walkDeclarators (ds : List Declarator) (trail : Trail σ) : Trail σ :=
  match ds with
  | [] => trail
  | ⟨_, none⟩ :: rest => walkDeclarators rest trail
  | ⟨_, some init⟩ :: rest => walkDeclarators rest (walkExpression init trail)
termination_by structural ds

end

end Walk

/-! ## Transforming -/

/-- What a visitor does with an expression. -/
inductive Step
  /-- Keep it and go on with its parts. -/
  | descend
  /-- Exchange the operands of an operator, then go on with the parts. -/
  | exchange
  /-- Put another expression in its place, whose parts are not shown. -/
  | replace (expression : Expression)

section Transform

variable {σ : Type} (tree : ScopeTree) (visit : Expression → ScopeId → σ → Step × σ)

mutual

/-- Transforms an expression. Targets of assignments and updates stay as they are. -/
def transformExpression (e : Expression) (trail : Trail σ) : Expression × Trail σ :=
  let decision := visit e trail.stack.current trail.state
  let seen : Trail σ := { trail with state := decision.2 }
  match decision.1, e with
  | .replace other, _ => (other, seen)
  | .exchange, .binary left operator right =>
    let first := transformExpression right seen
    let second := transformExpression left first.2
    (.binary first.1 operator second.1, second.2)
  | _, .binary left operator right =>
    let first := transformExpression left seen
    let second := transformExpression right first.2
    (.binary first.1 operator second.1, second.2)
  | _, .assignment operator target right =>
    let value := transformExpression right seen
    (.assignment operator target value.1, value.2)
  | _, .call callee arguments optional =>
    let function := transformExpression callee seen
    let items := transformExpressions arguments function.2
    (.call function.1 items.1 optional, items.2)
  | _, .member object property optional =>
    let inner := transformExpression object seen
    (.member inner.1 property optional, inner.2)
  | _, .parenthesized inner =>
    let inner := transformExpression inner seen
    (.parenthesized inner.1, inner.2)
  | _, .sequence items =>
    let items := transformExpressions items seen
    (.sequence items.1, items.2)
  | _, .function f =>
    let f := transformFunction f seen
    (.function f.1, f.2)
  | _, .identifier name => (.identifier name, seen)
  | _, .update operator leading target => (.update operator leading target, seen)
  | _, .verbatim source references => (.verbatim source references, seen)
termination_by structural e

/-- Transforms some expressions. -/
def transformExpressions (es : List Expression) (trail : Trail σ) : List Expression × Trail σ :=
  match es with
  | [] => ([], trail)
  | e :: rest =>
    let first := transformExpression e trail
    let others := transformExpressions rest first.2
    (first.1 :: others.1, others.2)
termination_by structural es

/-- Transforms the body of a function in its scope. -/
def transformFunction (f : Function) (trail : Trail σ) : Function × Trail σ :=
  match f with
  | ⟨id, signature, .block body⟩ =>
    let inner := transformStatements body (trail.enter tree id)
    (⟨id, signature, .block inner.1⟩, inner.2.leave)
  | ⟨id, signature, .expression value⟩ =>
    let inner := transformExpression value (trail.enter tree id)
    (⟨id, signature, .expression inner.1⟩, inner.2.leave)
termination_by structural f

/-- Transforms the expressions of a statement. -/
def transformStatement (s : Statement) (trail : Trail σ) : Statement × Trail σ :=
  match s with
  | .declaration kind items =>
    let items := transformDeclarators items trail
    (.declaration kind items.1, items.2)
  | .function f =>
    let f := transformFunction f trail
    (.function f.1, f.2)
  | .expression e =>
    let e := transformExpression e trail
    (.expression e.1, e.2)
  | .block id body =>
    let inner := transformStatements body (trail.enter tree id)
    (.block id inner.1, inner.2.leave)
  | .conditional test consequent none =>
    let test := transformExpression test trail
    let consequent := transformStatement consequent test.2
    (.conditional test.1 consequent.1 none, consequent.2)
  | .conditional test consequent (some alternate) =>
    let test := transformExpression test trail
    let consequent := transformStatement consequent test.2
    let alternate := transformStatement alternate consequent.2
    (.conditional test.1 consequent.1 (some alternate.1), alternate.2)
  | .result none => (.result none, trail)
  | .result (some value) =>
    let value := transformExpression value trail
    (.result (some value.1), value.2)
  | .labeled label body =>
    let body := transformStatement body trail
    (.labeled label body.1, body.2)
  | .verbatim source references => (.verbatim source references, trail)
termination_by structural s

/-- Transforms the expressions of some statements. -/
def transformStatements (ss : List Statement) (trail : Trail σ) : List Statement × Trail σ :=
  match ss with
  | [] => ([], trail)
  | s :: rest =>
    let first := transformStatement s trail
    let others := transformStatements rest first.2
    (first.1 :: others.1, others.2)
termination_by structural ss

/-- Transforms the initial values of some bindings. -/
def transformDeclarators (ds : List Declarator) (trail : Trail σ) : List Declarator × Trail σ :=
  match ds with
  | [] => ([], trail)
  | ⟨pattern, none⟩ :: rest =>
    let others := transformDeclarators rest trail
    (⟨pattern, none⟩ :: others.1, others.2)
  | ⟨pattern, some init⟩ :: rest =>
    let first := transformExpression init trail
    let others := transformDeclarators rest first.2
    (⟨pattern, some first.1⟩ :: others.1, others.2)
termination_by structural ds

end

end Transform

end ReactiveMarkup
