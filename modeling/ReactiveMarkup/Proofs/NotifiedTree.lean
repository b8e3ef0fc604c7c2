import ReactiveMarkup.Client.Notification
import ReactiveMarkup.Proofs.ScopeResolution
import ReactiveMarkup.Proofs.Transformation

/-!
# Trees with notifications

The visitor that puts notifications behind mutations has no state, so the traversal with it is a
plain function of the tree and of the scope stack (`notifyExpression`, `notifyStatement`, …): a
mutation that needs a notification is wrapped as it stands, and everything else keeps its form and
gets notifications in its children, save in the objects of the members it writes to
(`children_notifyNode`).
-/

namespace ReactiveMarkup

open Script (DeclarationKind Expression Target Function Body Statement Declarator Node)

/-- The stack with which a traversal goes on with the children of a node. -/
def ScopeStack.within (tree : ScopeTree) (stack : ScopeStack) (x : Node) : ScopeStack :=
  (x.id?.map (stack.enter tree)).getD stack

theorem ScopeStack.current_within (tree : ScopeTree) (stack : ScopeStack) (x : Node) :
    (stack.within tree x).current = x.innerScope tree stack.current := by
  unfold ScopeStack.within Node.innerScope
  cases x.id? <;> rfl

namespace Client

/-- An expression and a call of the notifying function, between parentheses. -/
def wrapped (e : Expression) (arguments : List Expression) (optional : Bool) : Expression :=
  .parenthesized (.sequence [e, .call (.identifier Vocabulary.update) arguments optional])

/-- Whether a node is some expression with a call of the notifying function behind it. -/
def IsNotified (x : Node) : Prop :=
  ∃ e arguments optional, x = .expression (wrapped e arguments optional)

section

variable (tree : ScopeTree) (invalidated : NameSet) (stack : ScopeStack)

/-- A node with notifications, below a stack of scopes. -/
def notifyNode (x : Node) : Node :=
  (transformNode tree (notifier tree invalidated) x ⟨stack, ()⟩).1

/-- An expression with notifications, below a stack of scopes. -/
def notifyExpression (e : Expression) : Expression :=
  (transformExpression tree (notifier tree invalidated) e ⟨stack, ()⟩).1

/-- A function with notifications, below a stack of scopes. -/
def notifyFunction (f : Function) : Function :=
  (transformFunction tree (notifier tree invalidated) f ⟨stack, ()⟩).1

/-- A statement with notifications, below a stack of scopes. -/
def notifyStatement (s : Statement) : Statement :=
  (transformStatement tree (notifier tree invalidated) s ⟨stack, ()⟩).1

/-- A binding with notifications, below a stack of scopes. -/
def notifyDeclarator (d : Declarator) : Declarator :=
  ⟨d.pattern, d.init.map (notifyExpression tree invalidated stack)⟩

@[simp] theorem notifyNode_expression (e : Expression) :
    notifyNode tree invalidated stack (.expression e) =
      .expression (notifyExpression tree invalidated stack e) := rfl

@[simp] theorem notifyNode_function (f : Function) :
    notifyNode tree invalidated stack (.function f) =
      .function (notifyFunction tree invalidated stack f) := rfl

@[simp] theorem notifyNode_statement (s : Statement) :
    notifyNode tree invalidated stack (.statement s) =
      .statement (notifyStatement tree invalidated stack s) := rfl

@[simp] theorem notifyNode_declarator (kind : DeclarationKind) (d : Declarator) :
    notifyNode tree invalidated stack (.declarator kind d) =
      .declarator kind (notifyDeclarator tree invalidated stack d) := by
  obtain ⟨pattern, init⟩ := d
  cases init <;> rfl

/-! ## The trail behind a node is the trail before it -/

theorem trail_expression (e : Expression) :
    (transformExpression tree (notifier tree invalidated) e ⟨stack, ()⟩).2 = ⟨stack, ()⟩ :=
  congrArg (Trail.mk · ()) (keepsStack tree (notifier tree invalidated) (.expression e) ⟨stack, ()⟩)

theorem trail_statement (s : Statement) :
    (transformStatement tree (notifier tree invalidated) s ⟨stack, ()⟩).2 = ⟨stack, ()⟩ :=
  congrArg (Trail.mk · ()) (keepsStack tree (notifier tree invalidated) (.statement s) ⟨stack, ()⟩)

theorem transformExpressions_eq (es : List Expression) :
    (transformExpressions tree (notifier tree invalidated) es ⟨stack, ()⟩).1 =
      es.map (notifyExpression tree invalidated stack) := by
  induction es with
  | nil => rfl
  | cons e rest ih =>
    rw [transformExpressions, trail_expression, ih]
    rfl

theorem transformStatements_eq (ss : List Statement) :
    (transformStatements tree (notifier tree invalidated) ss ⟨stack, ()⟩).1 =
      ss.map (notifyStatement tree invalidated stack) := by
  induction ss with
  | nil => rfl
  | cons s rest ih =>
    rw [transformStatements, trail_statement, ih]
    rfl

theorem transformDeclarators_eq (ds : List Declarator) :
    (transformDeclarators tree (notifier tree invalidated) ds ⟨stack, ()⟩).1 =
      ds.map (notifyDeclarator tree invalidated stack) := by
  induction ds with
  | nil => rfl
  | cons d rest ih =>
    obtain ⟨pattern, init⟩ := d
    cases init with
    | none =>
      rw [transformDeclarators, ih]
      rfl
    | some e =>
      rw [transformDeclarators, trail_expression, ih]
      rfl

/-! ## Notifications, construct by construct -/

@[simp] theorem notifyNode_script (body : List Statement) :
    notifyNode tree invalidated stack (.script body) =
      .script (body.map (notifyStatement tree invalidated stack)) :=
  congrArg Node.script (transformStatements_eq tree invalidated stack body)

theorem notifyExpression_of_names {e : Expression} {name : String} {names : List String}
    (due : notifiedNames tree invalidated e stack.current = name :: names) :
    notifyExpression tree invalidated stack e = notified e (name :: names) := by
  have step : (notifier tree invalidated e stack.current ()).1 =
      .replace (notified e (name :: names)) := by
    simp [notifier, notifyStep, due]
  exact congrArg Prod.fst
    (transformExpression_replace tree (notifier tree invalidated) ⟨stack, ()⟩ step)

theorem notifyExpression_of_nil {e : Expression}
    (due : notifiedNames tree invalidated e stack.current = []) :
    notifyExpression tree invalidated stack e =
      (transformParts tree (notifier tree invalidated) e ⟨stack, ()⟩).1 := by
  have step : (notifier tree invalidated e stack.current ()).1 = .descend := by
    simp [notifier, notifyStep, due]
  exact congrArg Prod.fst
    (transformExpression_descend tree (notifier tree invalidated) ⟨stack, ()⟩ step)

@[simp] theorem notifyExpression_identifier (name : String) :
    notifyExpression tree invalidated stack (.identifier name) = .identifier name :=
  notifyExpression_of_nil tree invalidated stack rfl

@[simp] theorem notifyExpression_verbatim (source : String) (references : List String) :
    notifyExpression tree invalidated stack (.verbatim source references) =
      .verbatim source references :=
  notifyExpression_of_nil tree invalidated stack rfl

@[simp] theorem notifyExpression_binary (left : Expression) (operator : String)
    (right : Expression) :
    notifyExpression tree invalidated stack (.binary left operator right) =
      .binary (notifyExpression tree invalidated stack left) operator
        (notifyExpression tree invalidated stack right) := by
  rw [notifyExpression_of_nil tree invalidated stack rfl, transformParts]
  dsimp only
  rw [trail_expression]
  rfl

@[simp] theorem notifyExpression_call (callee : Expression) (arguments : List Expression)
    (optional : Bool) :
    notifyExpression tree invalidated stack (.call callee arguments optional) =
      .call (notifyExpression tree invalidated stack callee)
        (arguments.map (notifyExpression tree invalidated stack)) optional := by
  rw [notifyExpression_of_nil tree invalidated stack rfl, transformParts]
  dsimp only
  rw [trail_expression, transformExpressions_eq]
  rfl

@[simp] theorem notifyExpression_member (object : Expression) (property : String)
    (optional : Bool) :
    notifyExpression tree invalidated stack (.member object property optional) =
      .member (notifyExpression tree invalidated stack object) property optional :=
  notifyExpression_of_nil tree invalidated stack rfl

@[simp] theorem notifyExpression_parenthesized (inner : Expression) :
    notifyExpression tree invalidated stack (.parenthesized inner) =
      .parenthesized (notifyExpression tree invalidated stack inner) :=
  notifyExpression_of_nil tree invalidated stack rfl

@[simp] theorem notifyExpression_sequence (items : List Expression) :
    notifyExpression tree invalidated stack (.sequence items) =
      .sequence (items.map (notifyExpression tree invalidated stack)) := by
  rw [notifyExpression_of_nil tree invalidated stack rfl, transformParts]
  dsimp only
  rw [transformExpressions_eq]

@[simp] theorem notifyExpression_function (f : Function) :
    notifyExpression tree invalidated stack (.function f) =
      .function (notifyFunction tree invalidated stack f) :=
  notifyExpression_of_nil tree invalidated stack rfl

theorem notifyExpression_assignment {operator : String} {target : Target} {right : Expression}
    (due : notifiedNames tree invalidated (.assignment operator target right) stack.current = []) :
    notifyExpression tree invalidated stack (.assignment operator target right) =
      .assignment operator target (notifyExpression tree invalidated stack right) :=
  notifyExpression_of_nil tree invalidated stack due

theorem notifyExpression_update {operator : String} {leading : Bool} {target : Target}
    (due : notifiedNames tree invalidated (.update operator leading target) stack.current = []) :
    notifyExpression tree invalidated stack (.update operator leading target) =
      .update operator leading target :=
  notifyExpression_of_nil tree invalidated stack due

@[simp] theorem notifyFunction_block (id : Nat) (signature : Script.Signature)
    (body : List Statement) :
    notifyFunction tree invalidated stack ⟨id, signature, .block body⟩ =
      ⟨id, signature, .block (body.map (notifyStatement tree invalidated (stack.enter tree id)))⟩ :=
  congrArg (fun inner => Function.mk id signature (.block inner))
    (transformStatements_eq tree invalidated (stack.enter tree id) body)

@[simp] theorem notifyFunction_expression (id : Nat) (signature : Script.Signature)
    (value : Expression) :
    notifyFunction tree invalidated stack ⟨id, signature, .expression value⟩ =
      ⟨id, signature,
        .expression (notifyExpression tree invalidated (stack.enter tree id) value)⟩ := rfl

@[simp] theorem notifyStatement_declaration (kind : DeclarationKind) (items : List Declarator) :
    notifyStatement tree invalidated stack (.declaration kind items) =
      .declaration kind (items.map (notifyDeclarator tree invalidated stack)) :=
  congrArg (Statement.declaration kind) (transformDeclarators_eq tree invalidated stack items)

@[simp] theorem notifyStatement_function (f : Function) :
    notifyStatement tree invalidated stack (.function f) =
      .function (notifyFunction tree invalidated stack f) := rfl

@[simp] theorem notifyStatement_expression (e : Expression) :
    notifyStatement tree invalidated stack (.expression e) =
      .expression (notifyExpression tree invalidated stack e) := rfl

@[simp] theorem notifyStatement_block (id : Nat) (body : List Statement) :
    notifyStatement tree invalidated stack (.block id body) =
      .block id (body.map (notifyStatement tree invalidated (stack.enter tree id))) :=
  congrArg (Statement.block id)
    (transformStatements_eq tree invalidated (stack.enter tree id) body)

@[simp] theorem notifyStatement_conditional (test : Expression) (consequent : Statement)
    (alternate : Option Statement) :
    notifyStatement tree invalidated stack (.conditional test consequent alternate) =
      .conditional (notifyExpression tree invalidated stack test)
        (notifyStatement tree invalidated stack consequent)
        (alternate.map (notifyStatement tree invalidated stack)) := by
  cases alternate with
  | none =>
    rw [notifyStatement, transformStatement, trail_expression]
    rfl
  | some alternate =>
    rw [notifyStatement, transformStatement, trail_expression]
    dsimp only
    rw [trail_statement]
    rfl

@[simp] theorem notifyStatement_result (value : Option Expression) :
    notifyStatement tree invalidated stack (.result value) =
      .result (value.map (notifyExpression tree invalidated stack)) := by
  cases value <;> rfl

@[simp] theorem notifyStatement_labeled (label : String) (body : Statement) :
    notifyStatement tree invalidated stack (.labeled label body) =
      .labeled label (notifyStatement tree invalidated stack body) := rfl

@[simp] theorem notifyStatement_verbatim (source : String) (references : List String) :
    notifyStatement tree invalidated stack (.verbatim source references) =
      .verbatim source references := rfl

/-! ## Notifications, node by node -/

/-- The names of a node in a scope that need a notification. -/
def dueIn (x : Node) (scope : ScopeId) : List String :=
  x.mutatedNames.filter fun name => invalidated.contains name && tree.isRootOrFree scope name

theorem notifyNode_of_due {x : Node} (due : dueIn tree invalidated x stack.current ≠ []) :
    ∃ m : Expression, x = .expression m ∧ m.target?.isSome ∧
      notifyNode tree invalidated stack x =
        .expression (notified m (dueIn tree invalidated x stack.current)) := by
  cases mutation : x.isMutation with
  | false =>
    exact absurd (by simp [dueIn, Node.mutatedNames_eq_nil mutation]) due
  | true =>
    cases x with
    | expression m =>
      obtain ⟨name, names, eq⟩ := List.exists_cons_of_ne_nil due
      refine ⟨m, rfl, mutation, ?_⟩
      rw [eq, notifyNode_expression, notifyExpression_of_names tree invalidated stack eq]
    | _ => simp [Node.isMutation] at mutation

theorem children_notifyNode_of_not_mutation {x : Node} (plain : x.isMutation = false) :
    (notifyNode tree invalidated stack x).children =
      x.children.map (notifyNode tree invalidated (stack.within tree x)) := by
  cases x with
  | script body => simp [Node.children, ScopeStack.within, Node.id?]
  | statement s =>
    cases s with
    | conditional test consequent alternate =>
      cases alternate <;> simp [Node.children, Node.ofStatement, ScopeStack.within, Node.id?]
    | result value =>
      cases value <;> simp [Node.children, Node.ofStatement, ScopeStack.within, Node.id?]
    | _ => simp [Node.children, Node.ofStatement, ScopeStack.within, Node.id?]
  | declarator kind d =>
    obtain ⟨pattern, init⟩ := d
    cases init <;> simp [Node.children, notifyDeclarator, ScopeStack.within, Node.id?]
  | function f =>
    obtain ⟨id, signature, body⟩ := f
    cases body <;> simp [Node.children, Node.ofFunction, ScopeStack.within, Node.id?]
  | expression e =>
    cases e with
    | assignment operator target right => simp [Node.isMutation, Expression.target?] at plain
    | update operator leading target => simp [Node.isMutation, Expression.target?] at plain
    | _ => simp [Node.children, Node.ofExpression, ScopeStack.within, Node.id?]

/-- A node without a notification of its own has its children with notifications, save the object of
the member that it writes to, which stays as it is. -/
theorem children_notifyNode {x : Node} (due : dueIn tree invalidated x stack.current = [])
    (i : Nat) :
    (notifyNode tree invalidated stack x).children[i]? =
      x.children[i]?.map fun y =>
        if x.isTargetObject i then y else notifyNode tree invalidated (stack.within tree x) y := by
  cases mutation : x.isMutation with
  | false =>
    rw [children_notifyNode_of_not_mutation tree invalidated stack mutation, List.getElem?_map]
    simp [Node.isTargetObject_eq_false mutation]
  | true =>
    cases x with
    | expression e =>
      -- the target stays, so at most the right-hand side changes; its number depends on the target
      cases e with
      | assignment operator target right =>
        rw [notifyNode_expression, notifyExpression_assignment tree invalidated stack due]
        cases target <;> rcases i with _ | _ | i <;> rfl
      | update operator leading target =>
        rw [notifyNode_expression, notifyExpression_update tree invalidated stack due]
        cases target <;> rcases i with _ | i <;> rfl
      | _ => simp [Node.isMutation, Expression.target?] at mutation
    | _ => simp [Node.isMutation] at mutation

/-! ## The shape of what gets no notification -/

theorem target?_notifyExpression {e : Expression}
    (due : notifiedNames tree invalidated e stack.current = []) :
    (notifyExpression tree invalidated stack e).target? = e.target? := by
  cases e with
  | assignment operator target right =>
    rw [notifyExpression_assignment tree invalidated stack due]
    rfl
  | update operator leading target =>
    rw [notifyExpression_update tree invalidated stack due]
  | _ => simp [Expression.target?]

/-- A mutation stays one or comes between parentheses. -/
theorem notifyExpression_mutation {e : Expression} (mutation : e.target?.isSome) :
    (notifyExpression tree invalidated stack e).target?.isSome ∨
      ∃ inner, notifyExpression tree invalidated stack e = .parenthesized inner := by
  cases due : notifiedNames tree invalidated e stack.current with
  | nil => exact .inl (by rwa [target?_notifyExpression tree invalidated stack due])
  | cons name names => exact .inr ⟨_, notifyExpression_of_names tree invalidated stack due⟩

theorem notifyExpression_eq_identifier {e : Expression} {name : String}
    (h : notifyExpression tree invalidated stack e = .identifier name) : e = .identifier name := by
  have plain := notifyExpression_mutation tree invalidated stack (e := e)
  rw [h] at plain
  cases e <;> simp_all [Expression.target?]

theorem notifyExpression_eq_call {e callee : Expression} {arguments : List Expression}
    {optional : Bool}
    (h : notifyExpression tree invalidated stack e = .call callee arguments optional) :
    ∃ callee' arguments', e = .call callee' arguments' optional ∧
      notifyExpression tree invalidated stack callee' = callee := by
  have plain := notifyExpression_mutation tree invalidated stack (e := e)
  rw [h] at plain
  cases e <;> simp_all [Expression.target?]

theorem notifyExpression_eq_sequence {e : Expression} {items : List Expression}
    (h : notifyExpression tree invalidated stack e = .sequence items) :
    ∃ items', e = .sequence items' ∧
      items'.map (notifyExpression tree invalidated stack) = items := by
  have plain := notifyExpression_mutation tree invalidated stack (e := e)
  rw [h] at plain
  cases e <;> simp_all [Expression.target?]

/-- A node that gets no notification looks like one with a notification only if it did before. -/
theorem isNotified_of_notifyNode {x : Node} (due : dueIn tree invalidated x stack.current = [])
    (h : IsNotified (notifyNode tree invalidated stack x)) : IsNotified x := by
  obtain ⟨m, arguments, optional, h⟩ := h
  cases x with
  | expression e =>
    have h : notifyExpression tree invalidated stack e = wrapped m arguments optional :=
      Node.expression.inj h
    have same := target?_notifyExpression tree invalidated stack due
    rw [h] at same
    cases e with
    | parenthesized inner =>
      -- the shape is read back from the outside in: sequence, call, name of the function
      rw [notifyExpression_parenthesized] at h
      obtain ⟨items, rfl, items_eq⟩ :=
        notifyExpression_eq_sequence tree invalidated stack (Expression.parenthesized.inj h)
      obtain ⟨m', _, rfl, -, items_eq⟩ := List.map_eq_cons_iff.1 items_eq
      obtain ⟨call, _, rfl, call_eq, items_eq⟩ := List.map_eq_cons_iff.1 items_eq
      obtain rfl := List.map_eq_nil_iff.1 items_eq
      obtain ⟨callee, arguments', rfl, callee_eq⟩ :=
        notifyExpression_eq_call tree invalidated stack call_eq
      obtain rfl := notifyExpression_eq_identifier tree invalidated stack callee_eq
      exact ⟨m', arguments', optional, rfl⟩
    | assignment operator target right => simp [wrapped, Expression.target?] at same
    | update operator leading target => simp [wrapped, Expression.target?] at same
    | _ => simp [wrapped] at h
  | statement s => simp at h
  | declarator kind d => simp at h
  | script body => simp at h
  | function f => simp at h

end

end Client

end ReactiveMarkup
