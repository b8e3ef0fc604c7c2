import ReactiveMarkup.Proofs.Position
import ReactiveMarkup.Scope.Traversal

/-!
# Transformations, one node at a time

A visitor decides at an expression whether the traversal replaces it or goes on with its parts
(`transformExpression_replace`, `transformExpression_descend`).

Whatever the visitor does, a transformation enters and leaves scopes in pairs: behind every node the
stack is the one before it (`keepsStack`). So what a visitor is shown of a node depends on the place
of the node and on the visitor's own state, never on the scopes of nodes that were passed.
-/

namespace ReactiveMarkup

open Script (DeclarationKind Expression Target Function Body Statement Declarator Node)

section

variable {σ : Type} (tree : ScopeTree) (visit : Expression → ScopeId → σ → Step × σ)

/-- Transforms the parts of an expression, in order. -/
def transformParts (e : Expression) (trail : Trail σ) : Expression × Trail σ :=
  match e with
  | .binary left operator right =>
    let first := transformExpression tree visit left trail
    let second := transformExpression tree visit right first.2
    (.binary first.1 operator second.1, second.2)
  | .assignment operator target right =>
    let value := transformExpression tree visit right trail
    (.assignment operator target value.1, value.2)
  | .call callee arguments optional =>
    let function := transformExpression tree visit callee trail
    let items := transformExpressions tree visit arguments function.2
    (.call function.1 items.1 optional, items.2)
  | .member object property optional =>
    let inner := transformExpression tree visit object trail
    (.member inner.1 property optional, inner.2)
  | .parenthesized inner =>
    let inner := transformExpression tree visit inner trail
    (.parenthesized inner.1, inner.2)
  | .sequence items =>
    let items := transformExpressions tree visit items trail
    (.sequence items.1, items.2)
  | .function f =>
    let f := transformFunction tree visit f trail
    (.function f.1, f.2)
  | .identifier name => (.identifier name, trail)
  | .update operator leading target => (.update operator leading target, trail)
  | .verbatim source references => (.verbatim source references, trail)

theorem transformExpression_descend {e : Expression} (trail : Trail σ)
    (step : (visit e trail.stack.current trail.state).1 = .descend) :
    transformExpression tree visit e trail =
      transformParts tree visit e
        { trail with state := (visit e trail.stack.current trail.state).2 } := by
  cases e <;> simp [transformExpression, step, transformParts]

theorem transformExpression_replace {e other : Expression} (trail : Trail σ)
    (step : (visit e trail.stack.current trail.state).1 = .replace other) :
    transformExpression tree visit e trail =
      (other, { trail with state := (visit e trail.stack.current trail.state).2 }) := by
  simp [transformExpression, step]

/-- Transforms a node. -/
def transformNode (x : Node) (trail : Trail σ) : Node × Trail σ :=
  match x with
  | .script body =>
    let body := transformStatements tree visit body trail
    (.script body.1, body.2)
  | .statement s =>
    let s := transformStatement tree visit s trail
    (.statement s.1, s.2)
  | .declarator kind ⟨pattern, none⟩ => (.declarator kind ⟨pattern, none⟩, trail)
  | .declarator kind ⟨pattern, some init⟩ =>
    let init := transformExpression tree visit init trail
    (.declarator kind ⟨pattern, some init.1⟩, init.2)
  | .function f =>
    let f := transformFunction tree visit f trail
    (.function f.1, f.2)
  | .expression e =>
    let e := transformExpression tree visit e trail
    (.expression e.1, e.2)

/-- Transforming a node leaves the stack as it found it. -/
def KeepsStack (x : Node) : Prop :=
  ∀ trail : Trail σ, (transformNode tree visit x trail).2.stack = trail.stack

variable {tree visit}

theorem stack_transformExpressions {es : List Expression}
    (each : ∀ y ∈ es.map Node.expression, KeepsStack tree visit y) (trail : Trail σ) :
    (transformExpressions tree visit es trail).2.stack = trail.stack := by
  induction es generalizing trail with
  | nil => rfl
  | cons e rest ih =>
    have first := each (.expression e) List.mem_cons_self trail
    have others := ih fun y mem => each y (List.mem_cons_of_mem _ mem)
    exact (others _).trans first

theorem stack_transformStatements {ss : List Statement}
    (each : ∀ y ∈ ss.map Node.statement, KeepsStack tree visit y) (trail : Trail σ) :
    (transformStatements tree visit ss trail).2.stack = trail.stack := by
  induction ss generalizing trail with
  | nil => rfl
  | cons s rest ih =>
    have first := each (.statement s) List.mem_cons_self trail
    have others := ih fun y mem => each y (List.mem_cons_of_mem _ mem)
    exact (others _).trans first

theorem stack_transformDeclarators {kind : DeclarationKind} {ds : List Declarator}
    (each : ∀ y ∈ ds.map (Node.declarator kind), KeepsStack tree visit y) (trail : Trail σ) :
    (transformDeclarators tree visit ds trail).2.stack = trail.stack := by
  induction ds generalizing trail with
  | nil => rfl
  | cons d rest ih =>
    have first := each (.declarator kind d) List.mem_cons_self trail
    have others := ih fun y mem => each y (List.mem_cons_of_mem _ mem)
    obtain ⟨pattern, init⟩ := d
    cases init with
    | none => exact others trail
    | some e => exact (others _).trans first

theorem stack_transformFunction {f : Function}
    (each : ∀ y ∈ Node.ofFunction f, KeepsStack tree visit y) (trail : Trail σ) :
    (transformFunction tree visit f trail).2.stack = trail.stack := by
  obtain ⟨id, signature, body⟩ := f
  cases body with
  | block body =>
    have inner := stack_transformStatements each (trail.enter tree id)
    exact congrArg ScopeStack.leave inner
  | expression value =>
    have inner := each (.expression value) List.mem_cons_self (trail.enter tree id)
    exact congrArg ScopeStack.leave inner

theorem stack_transformExpression {e : Expression}
    (each : ∀ y ∈ Node.ofExpression e, KeepsStack tree visit y) (trail : Trail σ) :
    (transformExpression tree visit e trail).2.stack = trail.stack := by
  unfold transformExpression
  dsimp only
  split
  · rfl
  · rename_i left operator right _
    have first := each (.expression right) (by simp [Node.ofExpression])
    have second := each (.expression left) (by simp [Node.ofExpression])
    exact (second _).trans (first _)
  · rename_i left operator right _ _
    have first := each (.expression left) (by simp [Node.ofExpression])
    have second := each (.expression right) (by simp [Node.ofExpression])
    exact (second _).trans (first _)
  · rename_i operator target right _
    exact each (.expression right) (by simp [Node.ofExpression]) _
  · rename_i callee arguments optional _
    have first := each (.expression callee) List.mem_cons_self
    have others := stack_transformExpressions fun y mem => each y (List.mem_cons_of_mem _ mem)
    exact (others _).trans (first _)
  · rename_i object property optional _
    exact each (.expression object) List.mem_cons_self _
  · rename_i inner _
    exact each (.expression inner) List.mem_cons_self _
  · exact stack_transformExpressions each _
  · rename_i f _
    exact each (.function f) List.mem_cons_self _
  all_goals rfl

theorem stack_transformStatement {s : Statement}
    (each : ∀ y ∈ Node.ofStatement s, KeepsStack tree visit y) (trail : Trail σ) :
    (transformStatement tree visit s trail).2.stack = trail.stack := by
  cases s with
  | declaration kind items => exact stack_transformDeclarators each trail
  | function f => exact each (.function f) List.mem_cons_self trail
  | expression e => exact each (.expression e) List.mem_cons_self trail
  | block id body =>
    have inner := stack_transformStatements each (trail.enter tree id)
    exact congrArg ScopeStack.leave inner
  | conditional test consequent alternate =>
    have first := each (.expression test) List.mem_cons_self
    have second := each (.statement consequent) (by simp [Node.ofStatement])
    cases alternate with
    | none => exact (second _).trans (first trail)
    | some alternate =>
      have third := each (.statement alternate) (by simp [Node.ofStatement])
      exact (third _).trans ((second _).trans (first trail))
  | result value =>
    cases value with
    | none => rfl
    | some e => exact each (.expression e) List.mem_cons_self trail
  | labeled label body => exact each (.statement body) List.mem_cons_self trail
  | verbatim source references => rfl

variable (tree visit)

/-- **Every node leaves the stack as it found it.** -/
theorem keepsStack (x : Node) : KeepsStack tree visit x := by
  induction x using Node.induction with
  | step x ih =>
    intro trail
    cases x with
    | script body => exact stack_transformStatements ih trail
    | statement s => exact stack_transformStatement ih trail
    | declarator kind d =>
      obtain ⟨pattern, init⟩ := d
      cases init with
      | none => rfl
      | some e => exact ih (.expression e) List.mem_cons_self trail
    | function f => exact stack_transformFunction ih trail
    | expression e => exact stack_transformExpression ih trail

end

end ReactiveMarkup
