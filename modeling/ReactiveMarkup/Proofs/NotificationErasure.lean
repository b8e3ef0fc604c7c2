import ReactiveMarkup.Proofs.NotifiedTree

/-!
# Removing notifications

`withoutNotifications` takes every notification out of a tree, at any depth: each pair of
parentheses around an expression and a call of the notifying function becomes the expression. On
trees that do not mention the notifying function it undoes the rewriting
(`withoutNotifications_notifyNode`).
-/

namespace ReactiveMarkup

open Script (DeclarationKind Expression Target Function Body Statement Declarator Node)

namespace Script

/-- Whether an expression is a call of the notifying function. -/
def Expression.isNotification : Expression → Bool
  | .call (.identifier name) _ _ => name == Vocabulary.update
  | _ => false

/-- Puts an expression between parentheses, unless it is a sequence of an expression and a
notification; then only the expression is kept. -/
def Expression.closed : Expression → Expression
  | .sequence [e, last] =>
    if last.isNotification then e else .parenthesized (.sequence [e, last])
  | e => .parenthesized e

mutual

/-- An expression without its notifications. -/
@[simp] def Expression.withoutNotifications : Expression → Expression
  | .identifier name => .identifier name
  | .binary left operator right =>
    .binary left.withoutNotifications operator right.withoutNotifications
  | .assignment operator target right =>
    .assignment operator target.withoutNotifications right.withoutNotifications
  | .update operator leading target => .update operator leading target.withoutNotifications
  | .call callee arguments optional =>
    .call callee.withoutNotifications (Expression.allWithoutNotifications arguments) optional
  | .member object property optional => .member object.withoutNotifications property optional
  | .parenthesized inner => inner.withoutNotifications.closed
  | .sequence items => .sequence (Expression.allWithoutNotifications items)
  | .function f => .function f.withoutNotifications
  | .verbatim source references => .verbatim source references
termination_by structural e => e

/-- Some expressions without their notifications. -/
def Expression.allWithoutNotifications : List Expression → List Expression
  | [] => []
  | e :: rest => e.withoutNotifications :: Expression.allWithoutNotifications rest
termination_by structural es => es

/-- A target without its notifications. -/
@[simp] def Target.withoutNotifications : Target → Target
  | .identifier name => .identifier name
  | .member object property => .member object.withoutNotifications property
  | .verbatim source names => .verbatim source names
termination_by structural t => t

/-- A function without its notifications. -/
@[simp] def Function.withoutNotifications : Function → Function
  | ⟨id, signature, .block body⟩ =>
    ⟨id, signature, .block (Statement.allWithoutNotifications body)⟩
  | ⟨id, signature, .expression value⟩ =>
    ⟨id, signature, .expression value.withoutNotifications⟩
termination_by structural f => f

/-- A statement without its notifications. -/
@[simp] def Statement.withoutNotifications : Statement → Statement
  | .declaration kind items => .declaration kind (Declarator.allWithoutNotifications items)
  | .function f => .function f.withoutNotifications
  | .expression e => .expression e.withoutNotifications
  | .block id body => .block id (Statement.allWithoutNotifications body)
  | .conditional test consequent none =>
    .conditional test.withoutNotifications consequent.withoutNotifications none
  | .conditional test consequent (some alternate) =>
    .conditional test.withoutNotifications consequent.withoutNotifications
      (some alternate.withoutNotifications)
  | .result none => .result none
  | .result (some value) => .result (some value.withoutNotifications)
  | .labeled label body => .labeled label body.withoutNotifications
  | .verbatim source references => .verbatim source references
termination_by structural s => s

/-- Some statements without their notifications. -/
def Statement.allWithoutNotifications : List Statement → List Statement
  | [] => []
  | s :: rest => s.withoutNotifications :: Statement.allWithoutNotifications rest
termination_by structural ss => ss

/-- Some bindings without the notifications in their initial values. -/
def Declarator.allWithoutNotifications : List Declarator → List Declarator
  | [] => []
  | ⟨pattern, none⟩ :: rest => ⟨pattern, none⟩ :: Declarator.allWithoutNotifications rest
  | ⟨pattern, some init⟩ :: rest =>
    ⟨pattern, some init.withoutNotifications⟩ :: Declarator.allWithoutNotifications rest
termination_by structural ds => ds

end

/-- A binding without the notifications in its initial value. -/
@[simp] def Declarator.withoutNotifications (d : Declarator) : Declarator :=
  ⟨d.pattern, d.init.map Expression.withoutNotifications⟩

/-- A node without its notifications. -/
@[simp] def Node.withoutNotifications : Node → Node
  | .script body => .script (body.map Statement.withoutNotifications)
  | .statement s => .statement s.withoutNotifications
  | .declarator kind d => .declarator kind d.withoutNotifications
  | .function f => .function f.withoutNotifications
  | .expression e => .expression e.withoutNotifications

@[simp] theorem Expression.allWithoutNotifications_eq (es : List Expression) :
    Expression.allWithoutNotifications es = es.map Expression.withoutNotifications := by
  induction es with
  | nil => rfl
  | cons e rest ih => rw [Expression.allWithoutNotifications, ih, List.map_cons]

@[simp] theorem Statement.allWithoutNotifications_eq (ss : List Statement) :
    Statement.allWithoutNotifications ss = ss.map Statement.withoutNotifications := by
  induction ss with
  | nil => rfl
  | cons s rest ih => rw [Statement.allWithoutNotifications, ih, List.map_cons]

@[simp] theorem Declarator.allWithoutNotifications_eq (ds : List Declarator) :
    Declarator.allWithoutNotifications ds = ds.map Declarator.withoutNotifications := by
  induction ds with
  | nil => rfl
  | cons d rest ih =>
    obtain ⟨pattern, init⟩ := d
    cases init <;> rw [Declarator.allWithoutNotifications, ih] <;> rfl

end Script

namespace Client

open Script

/-! ## Trees that do not mention the notifying function -/

theorem mentions_of_isNotified {x : Node} (h : IsNotified x) : x.Mentions Vocabulary.update := by
  obtain ⟨e, arguments, optional, rfl⟩ := h
  exact Node.mem_subnodes_of_at? (p := [0, 1, 0]) rfl

theorem closed_of_not_mentions {inner : Expression}
    (silent : ¬ (Node.expression (.parenthesized inner)).Mentions Vocabulary.update) :
    inner.closed = .parenthesized inner := by
  unfold Expression.closed
  split
  · rename_i e last
    rw [if_neg]
    intro isNotification
    unfold Expression.isNotification at isNotification
    split at isNotification
    · rename_i name arguments optional
      obtain rfl := beq_iff_eq.1 isNotification
      exact silent (mentions_of_isNotified ⟨e, arguments, optional, rfl⟩)
    · cases isNotification
  · rfl

theorem map_eq_self {α : Type} {f : α → α} {xs : List α} (h : ∀ x ∈ xs, f x = x) :
    xs.map f = xs :=
  (List.map_congr_left h).trans (List.map_id xs)

theorem withoutNotifications_target {t : Target}
    (each : ∀ y ∈ t.object?.toList.map Node.expression, y.withoutNotifications = y) :
    t.withoutNotifications = t := by
  cases t with
  | member object property =>
    have inner := each (.expression object) List.mem_cons_self
    rw [Target.withoutNotifications, Node.expression.inj inner]
  | _ => rfl

/-- Without a mention of the notifying function there is nothing to remove. -/
theorem withoutNotifications_of_not_mentions {x : Node}
    (silent : ¬ x.Mentions Vocabulary.update) : x.withoutNotifications = x := by
  induction x using Node.induction with
  | step x ih =>
    have each : ∀ y ∈ x.children, y.withoutNotifications = y := fun y mem =>
      ih y mem fun mentions => silent (mentions.of_child mem)
    cases x with
    | script body => simp_all [Node.children, map_eq_self]
    | statement s =>
      cases s with
      | conditional test consequent alternate =>
        cases alternate <;> simp_all [Node.children, Node.ofStatement]
      | result value => cases value <;> simp_all [Node.children, Node.ofStatement]
      | _ => simp_all [Node.children, Node.ofStatement, map_eq_self]
    | declarator kind d =>
      obtain ⟨pattern, init⟩ := d
      cases init <;> simp_all [Node.children]
    | function f =>
      obtain ⟨id, signature, body⟩ := f
      cases body <;> simp_all [Node.children, Node.ofFunction, map_eq_self]
    | expression e =>
      cases e with
      | assignment operator target right =>
        have target_eq := withoutNotifications_target fun y mem =>
          each y (List.mem_append_left _ mem)
        have right_eq := each (.expression right) (by simp [Node.children, Node.ofExpression])
        simp_all
      | update operator leading target =>
        have target_eq := withoutNotifications_target each
        simp_all
      | parenthesized inner =>
        have inner_eq := each (.expression inner) List.mem_cons_self
        -- parentheses are taken off only around a notification
        have kept := closed_of_not_mentions silent
        simp_all
      | _ => simp_all [Node.children, Node.ofExpression, map_eq_self]

/-! ## Restoring the original -/

variable {tree : ScopeTree} {invalidated : NameSet}

/-- A notification that is put behind an expression is removed again. -/
theorem withoutNotifications_notified (e : Expression) (names : List String) :
    (notified e names).withoutNotifications = e.withoutNotifications := by
  simp [notified, notification, Expression.closed, Expression.isNotification]

/-- **Removing the notifications restores the original.** -/
theorem withoutNotifications_notifyNode {x : Node} (silent : ¬ x.Mentions Vocabulary.update)
    (stack : ScopeStack) : (notifyNode tree invalidated stack x).withoutNotifications = x := by
  induction x using Node.induction generalizing stack with
  | step x ih =>
    by_cases due : dueIn tree invalidated x stack.current = []
    case neg =>
      -- below its notification, a mutation stands as it was
      obtain ⟨m, rfl, -, eq⟩ := notifyNode_of_due tree invalidated stack due
      have same := withoutNotifications_of_not_mentions silent
      rw [eq, Node.withoutNotifications, withoutNotifications_notified]
      exact same
    case pos =>
    have each : ∀ y ∈ x.children, ∀ stack,
        (notifyNode tree invalidated stack y).withoutNotifications = y := fun y mem =>
      ih y mem fun mentions => silent (mentions.of_child mem)
    cases x with
    | script body => simp_all [Node.children, map_eq_self]
    | statement s =>
      cases s with
      | conditional test consequent alternate =>
        cases alternate <;> simp_all [Node.children, Node.ofStatement]
      | result value => cases value <;> simp_all [Node.children, Node.ofStatement]
      | _ => simp_all [Node.children, Node.ofStatement, map_eq_self]
    | declarator kind d =>
      obtain ⟨pattern, init⟩ := d
      cases init <;> simp_all [Node.children, notifyDeclarator]
    | function f =>
      obtain ⟨id, signature, body⟩ := f
      cases body <;> simp_all [Node.children, Node.ofFunction, map_eq_self]
    | expression e =>
      cases e with
      | assignment operator target right =>
        -- the target was not rewritten, so its part comes from the original
        have right_eq := each (.expression right) (by simp [Node.children, Node.ofExpression])
        have same := withoutNotifications_of_not_mentions silent
        rw [notifyNode_expression, notifyExpression_assignment tree invalidated stack due]
        simp_all
      | update operator leading target =>
        have same := withoutNotifications_of_not_mentions silent
        rw [notifyNode_expression, notifyExpression_update tree invalidated stack due]
        exact same
      | parenthesized inner =>
        have inner_eq := each (.expression inner) List.mem_cons_self
        have kept := closed_of_not_mentions silent
        simp_all
      | _ => simp_all [Node.children, Node.ofExpression, map_eq_self]

end Client

end ReactiveMarkup
