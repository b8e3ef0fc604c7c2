import ReactiveMarkup.Script.Tree

/-!
# Positions in a script

Statements, functions, bindings and expressions contain each other. To speak about "a node at any
depth" they are put into one type, `Node`, whose `children` are the nodes directly inside it in
source order. A position is a list of child numbers, read from the outside in (`at?`).

Everything that holds of a node whenever it holds of its children holds of every node
(`Node.induction`): this replaces the recursion over five mutually dependent kinds of syntax.
-/

namespace ReactiveMarkup.Script

/-- A piece of a script. -/
inductive Node
  | script (body : List Statement)
  | statement (statement : Statement)
  /-- One binding of a declaration of the given kind. -/
  | declarator (kind : DeclarationKind) (declarator : Declarator)
  | function (function : Function)
  | expression (expression : Expression)

/-- The object whose member a target is. -/
def Target.object? : Target → Option Expression
  | .member object _ => some object
  | _ => none

/-- What an expression writes to, when it is an assignment or an update. -/
def Expression.target? : Expression → Option Target
  | .assignment _ target _ => some target
  | .update _ _ target => some target
  | _ => none

namespace Node

/-- The nodes directly inside an expression. -/
def ofExpression : Expression → List Node
  | .identifier _ => []
  | .binary left _ right => [.expression left, .expression right]
  | .assignment _ target right => target.object?.toList.map .expression ++ [.expression right]
  | .update _ _ target => target.object?.toList.map .expression
  | .call callee arguments _ => .expression callee :: arguments.map .expression
  | .member object _ _ => [.expression object]
  | .parenthesized inner => [.expression inner]
  | .sequence items => items.map .expression
  | .function f => [.function f]
  | .verbatim _ _ => []

/-- The nodes directly inside a statement. -/
def ofStatement : Statement → List Node
  | .declaration kind items => items.map (.declarator kind)
  | .function f => [.function f]
  | .expression e => [.expression e]
  | .block _ body => body.map .statement
  | .conditional test consequent alternate =>
    .expression test :: .statement consequent :: alternate.toList.map .statement
  | .result value => value.toList.map .expression
  | .labeled _ body => [.statement body]
  | .verbatim _ _ => []

/-- The nodes directly inside a function. -/
def ofFunction : Function → List Node
  | ⟨_, _, .block body⟩ => body.map .statement
  | ⟨_, _, .expression value⟩ => [.expression value]

/-- The nodes directly inside a node, in source order. -/
def children : Node → List Node
  | .script body => body.map .statement
  | .statement s => ofStatement s
  | .declarator _ d => d.init.toList.map .expression
  | .function f => ofFunction f
  | .expression e => ofExpression e

/-- The id of a node that has a scope of its own. -/
def id? : Node → Option Nat
  | .function f => some f.id
  | .statement (.block id _) => some id
  | _ => none

/-- The names that a node itself writes to. -/
def mutatedNames : Node → List String
  | .expression e => e.mutatedNames
  | _ => []

/-- Whether a node is an assignment or an update. -/
def isMutation : Node → Bool
  | .expression e => e.target?.isSome
  | _ => false

theorem mutatedNames_eq_nil {x : Node} (h : x.isMutation = false) : x.mutatedNames = [] := by
  cases x with
  | expression e => cases e <;> first | rfl | simp [isMutation, Expression.target?] at h
  | _ => rfl

/-! ## Induction over the nodes of a script -/

theorem sizeOf_lt_of_mem_expressions {es : List Expression} {y : Node}
    (h : y ∈ es.map Node.expression) : sizeOf y < sizeOf es + 1 := by
  obtain ⟨e, mem, rfl⟩ := List.mem_map.1 h
  have := List.sizeOf_lt_of_mem mem
  simp only [Node.expression.sizeOf_spec]
  omega

theorem sizeOf_lt_of_mem_statements {ss : List Statement} {y : Node}
    (h : y ∈ ss.map Node.statement) : sizeOf y < sizeOf ss + 1 := by
  obtain ⟨s, mem, rfl⟩ := List.mem_map.1 h
  have := List.sizeOf_lt_of_mem mem
  simp only [Node.statement.sizeOf_spec]
  omega

theorem sizeOf_lt_of_mem_target {t : Target} {y : Node}
    (h : y ∈ t.object?.toList.map Node.expression) : sizeOf y < sizeOf t + 1 := by
  cases t with
  | member object property =>
    simp only [Target.object?, Option.toList_some, List.map_cons, List.map_nil,
      List.mem_singleton] at h
    subst h
    simp only [Node.expression.sizeOf_spec, Target.member.sizeOf_spec]
    omega
  | _ => simp [Target.object?] at h

theorem sizeOf_lt_of_mem_ofExpression {e : Expression} {y : Node} (h : y ∈ ofExpression e) :
    sizeOf y < sizeOf e + 1 := by
  cases e with
  | identifier name => simp [ofExpression] at h
  | verbatim source references => simp [ofExpression] at h
  | binary left operator right =>
    simp only [ofExpression, List.mem_cons, List.not_mem_nil, or_false] at h
    rcases h with rfl | rfl <;> simp <;> omega
  | assignment operator target right =>
    simp only [ofExpression, List.mem_append, List.mem_singleton] at h
    rcases h with h | rfl
    · have := sizeOf_lt_of_mem_target h
      simp only [Expression.assignment.sizeOf_spec]
      omega
    · simp
      omega
  | update operator leading target =>
    have := sizeOf_lt_of_mem_target h
    simp only [Expression.update.sizeOf_spec]
    omega
  | call callee arguments optional =>
    simp only [ofExpression, List.mem_cons] at h
    rcases h with rfl | h
    · simp
      omega
    · have := sizeOf_lt_of_mem_expressions h
      simp only [Expression.call.sizeOf_spec]
      omega
  | member object property optional =>
    simp only [ofExpression, List.mem_singleton] at h
    subst h
    simp
    omega
  | parenthesized inner =>
    simp only [ofExpression, List.mem_singleton] at h
    subst h
    simp
  | sequence items =>
    have := sizeOf_lt_of_mem_expressions h
    simp only [Expression.sequence.sizeOf_spec]
    omega
  | function f =>
    simp only [ofExpression, List.mem_singleton] at h
    subst h
    simp

theorem sizeOf_lt_of_mem_ofStatement {s : Statement} {y : Node} (h : y ∈ ofStatement s) :
    sizeOf y < sizeOf s + 1 := by
  cases s with
  | declaration kind items =>
    obtain ⟨d, mem, rfl⟩ := List.mem_map.1 h
    have := List.sizeOf_lt_of_mem mem
    simp only [Node.declarator.sizeOf_spec, Statement.declaration.sizeOf_spec]
    omega
  | function f =>
    simp only [ofStatement, List.mem_singleton] at h
    subst h
    simp
  | expression e =>
    simp only [ofStatement, List.mem_singleton] at h
    subst h
    simp
  | block id body =>
    have := sizeOf_lt_of_mem_statements h
    simp only [Statement.block.sizeOf_spec]
    omega
  | conditional test consequent alternate =>
    cases alternate <;>
    · simp only [ofStatement, Option.toList, List.map_cons, List.map_nil, List.mem_cons,
        List.not_mem_nil, or_false] at h
      rcases h with rfl | rfl | rfl <;> simp <;> omega
  | result value =>
    cases value with
    | none => simp [ofStatement] at h
    | some e =>
      simp only [ofStatement, Option.toList_some, List.map_cons, List.map_nil,
        List.mem_singleton] at h
      subst h
      simp only [Node.expression.sizeOf_spec, Statement.result.sizeOf_spec,
        Option.some.sizeOf_spec]
      omega
  | labeled label body =>
    simp only [ofStatement, List.mem_singleton] at h
    subst h
    simp only [Node.statement.sizeOf_spec, Statement.labeled.sizeOf_spec]
    omega
  | verbatim source references => simp [ofStatement] at h

theorem sizeOf_lt_of_mem_children {x y : Node} (h : y ∈ x.children) : sizeOf y < sizeOf x := by
  cases x with
  | script body =>
    have := sizeOf_lt_of_mem_statements h
    simp only [Node.script.sizeOf_spec]
    omega
  | statement s =>
    have := sizeOf_lt_of_mem_ofStatement h
    simp only [Node.statement.sizeOf_spec]
    omega
  | declarator kind d =>
    obtain ⟨pattern, init⟩ := d
    cases init with
    | none => simp [children] at h
    | some e =>
      simp only [children, Option.toList_some, List.map_cons, List.map_nil,
        List.mem_singleton] at h
      subst h
      simp
      omega
  | function f =>
    obtain ⟨id, signature, body⟩ := f
    cases body with
    | block body =>
      have := sizeOf_lt_of_mem_statements h
      simp
      omega
    | expression value =>
      simp only [children, ofFunction, List.mem_singleton] at h
      subst h
      simp
      omega
  | expression e =>
    have := sizeOf_lt_of_mem_ofExpression h
    simp only [Node.expression.sizeOf_spec]
    omega

/-- What holds of every node whose children it holds of, holds of every node. -/
theorem induction {motive : Node → Prop}
    (step : ∀ x : Node, (∀ y ∈ x.children, motive y) → motive x) (x : Node) : motive x :=
  step x fun y h =>
    have := sizeOf_lt_of_mem_children h
    induction step y
termination_by sizeOf x

/-! ## All nodes of a script -/

/-- A node and everything inside it, outer nodes first and in source order. -/
def subnodes (x : Node) : List Node :=
  x :: x.children.attach.flatMap fun ⟨y, _⟩ => subnodes y
termination_by sizeOf x
decreasing_by exact sizeOf_lt_of_mem_children ‹_›

theorem subnodes_eq (x : Node) : x.subnodes = x :: x.children.flatMap subnodes := by
  rw [subnodes]
  simp

/-- The ids of the functions and blocks in a node. -/
def ids (x : Node) : List Nat := x.subnodes.filterMap id?

theorem ids_eq (x : Node) : x.ids = x.id?.toList ++ x.children.flatMap ids := by
  unfold ids
  rw [subnodes_eq, List.filterMap_cons]
  cases x.id? <;> simp [List.filterMap_flatMap]

/-- Whether an identifier of the given name stands anywhere in a node. -/
def Mentions (x : Node) (name : String) : Prop := .expression (.identifier name) ∈ x.subnodes

theorem Mentions.of_child {x y : Node} {name : String} (mem : y ∈ x.children)
    (h : y.Mentions name) : x.Mentions name := by
  unfold Mentions
  rw [subnodes_eq]
  exact List.mem_cons_of_mem _ (List.mem_flatMap.2 ⟨y, mem, h⟩)

/-! ## Positions -/

/-- The node at a position. -/
def at? : Node → List Nat → Option Node
  | x, [] => some x
  | x, i :: rest => x.children[i]?.bind (·.at? rest)

theorem mem_subnodes_of_at? {x y : Node} {p : List Nat} (found : x.at? p = some y) :
    y ∈ x.subnodes := by
  induction p generalizing x with
  | nil =>
    cases found
    rw [subnodes_eq]
    exact List.mem_cons_self
  | cons i rest ih =>
    obtain ⟨c, child, found⟩ := Option.bind_eq_some_iff.1 found
    rw [subnodes_eq]
    exact List.mem_cons_of_mem _
      (List.mem_flatMap.2 ⟨c, List.mem_of_getElem? child, ih found⟩)

theorem Mentions.of_at? {x y : Node} {p : List Nat} {name : String} (found : x.at? p = some y)
    (h : y.Mentions name) : x.Mentions name := by
  induction p generalizing x with
  | nil =>
    cases found
    exact h
  | cons i rest ih =>
    obtain ⟨c, child, found⟩ := Option.bind_eq_some_iff.1 found
    exact (ih found).of_child (List.mem_of_getElem? child)

theorem at?_append (x : Node) (p q : List Nat) : x.at? (p ++ q) = (x.at? p).bind (·.at? q) := by
  induction p generalizing x with
  | nil => rfl
  | cons i rest ih => simp [at?, ih, Option.bind_assoc]

/-- Whether the first position lies properly inside the second. -/
def Inside (p q : List Nat) : Prop := ∃ i rest, p = q ++ i :: rest

theorem not_inside_nil (q : List Nat) : ¬ Inside [] q := by
  rintro ⟨i, rest, eq⟩
  simp at eq

theorem inside_cons_nil (i : Nat) (rest : List Nat) : Inside (i :: rest) [] := ⟨i, rest, rfl⟩

theorem inside_cons_cons {i j : Nat} {p q : List Nat} :
    Inside (i :: p) (j :: q) ↔ i = j ∧ Inside p q := by
  constructor
  · rintro ⟨k, rest, eq⟩
    obtain ⟨rfl, rfl⟩ := List.cons.inj eq
    exact ⟨rfl, k, rest, rfl⟩
  · rintro ⟨rfl, k, rest, rfl⟩
    exact ⟨k, rest, rfl⟩

theorem Inside.trans {p q r : List Nat} (h : Inside p q) (h' : Inside q r) : Inside p r := by
  obtain ⟨i, rest, rfl⟩ := h
  obtain ⟨j, rest', rfl⟩ := h'
  exact ⟨j, rest' ++ i :: rest, by simp⟩

theorem at?_of_inside {x y : Node} {p q : List Nat} (inside : Inside p q)
    (found : x.at? p = some y) : ∃ z, x.at? q = some z := by
  obtain ⟨i, rest, rfl⟩ := inside
  rw [at?_append] at found
  obtain ⟨z, found, -⟩ := Option.bind_eq_some_iff.1 found
  exact ⟨z, found⟩

/-- Whether a child of a node is the object of the member that the node writes to. -/
def isTargetObject : Node → Nat → Bool
  | .expression e, 0 => (e.target?.bind Target.object?).isSome
  | _, _ => false

theorem isTargetObject_eq_false {x : Node} (h : x.isMutation = false) (i : Nat) :
    x.isTargetObject i = false := by
  cases x with
  | expression e =>
    cases i with
    | zero => simp_all [isMutation, isTargetObject]
    | succ i => rfl
  | _ => rfl

/-- Whether a position lies inside the object of a member that is written to. -/
def entersTarget : Node → List Nat → Bool
  | _, [] => false
  | x, i :: rest => x.isTargetObject i || x.children[i]?.any (·.entersTarget rest)

theorem entersTarget_of_inside {x : Node} {p q : List Nat} (inside : Inside p q)
    (free : x.entersTarget p = false) : x.entersTarget q = false := by
  induction q generalizing x p with
  | nil => rfl
  | cons j q ih =>
    obtain ⟨i, rest, rfl⟩ := inside
    rw [List.cons_append, entersTarget, Bool.or_eq_false_iff] at free
    rw [entersTarget, free.1, Bool.false_or]
    cases child : x.children[j]? with
    | none => rfl
    | some y => exact ih ⟨i, rest, rfl⟩ (by simpa [child] using free.2)

end Node

end ReactiveMarkup.Script
