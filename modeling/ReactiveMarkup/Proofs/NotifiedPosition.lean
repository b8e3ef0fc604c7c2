import ReactiveMarkup.Proofs.NotifiedTree

/-!
# Where notifications stand

A tree with notifications is compared with the original position by position. A notification moves
the mutation that it follows two levels down, so a position is followed through both trees at once
and passes over the notifications of the mutations on the way (`Node.counterpart?`).

The traversal *reaches* a position if no node around it gets a notification and no member that is
written to has it in its object. What stands at a position that is reached is the original with
notifications; what is not reached stays as it is (`counterpart?_of_reached`,
`counterpart?_of_not_reached`).
-/

namespace ReactiveMarkup

open Script (Expression Target Function Statement Declarator Node)

namespace Script.Node

/-- A node of a rewritten tree; for a mutation, without the notification behind it. -/
def unwrapped (original rewritten : Node) : Node :=
  match original.isMutation, rewritten with
  | true, .expression (.parenthesized (.sequence [e, _])) => .expression e
  | _, _ => rewritten

/-- The node of a rewritten tree that stands for the node of the original at a position. -/
def counterpart? : Node → Node → List Nat → Option Node
  | _, rewritten, [] => some rewritten
  | original, rewritten, i :: rest =>
    original.children[i]?.bind fun y =>
      (unwrapped original rewritten).children[i]?.bind fun y' => counterpart? y y' rest

theorem unwrapped_self (x : Node) : unwrapped x x = x := by
  unfold unwrapped
  split
  · rename_i e last mutation
    simp [isMutation, Expression.target?] at mutation
  · rfl

theorem counterpart?_self (x : Node) (p : List Nat) : counterpart? x x p = x.at? p := by
  induction p generalizing x with
  | nil => rfl
  | cons i rest ih =>
    rw [counterpart?, unwrapped_self, at?]
    cases x.children[i]? with
    | none => rfl
    | some y => exact ih y

end Script.Node

/-- The stack with which a traversal arrives at a position. -/
def ScopeStack.withinAt (tree : ScopeTree) : ScopeStack → Node → List Nat → ScopeStack
  | stack, _, [] => stack
  | stack, x, i :: rest =>
    (x.children[i]?.map fun y => withinAt tree (stack.within tree x) y rest).getD stack

theorem ScopeStack.current_withinAt (tree : ScopeTree) (stack : ScopeStack) (x : Node)
    (p : List Nat) : (stack.withinAt tree x p).current = x.scopeAt tree stack.current p := by
  induction p generalizing stack x with
  | nil => rfl
  | cons i rest ih =>
    rw [withinAt, Node.scopeAt]
    cases x.children[i]? with
    | none => rfl
    | some y =>
      simp only [Option.map_some, Option.getD_some]
      rw [ih, current_within]

namespace Client

open Script.Node (Inside counterpart? unwrapped)

section

variable (tree : ScopeTree) (invalidated : NameSet)

/-- The names of the node at a position that need a notification, found through the node map of a
tree. -/
def dueAt (scope : ScopeId) (x : Node) (p : List Nat) : List String :=
  ((x.at? p).map fun y => dueIn tree invalidated y (x.scopeAt tree scope p)).getD []

theorem dueAt_cons {scope : ScopeId} {x y : Node} {i : Nat} (child : x.children[i]? = some y)
    (rest : List Nat) :
    dueAt tree invalidated scope x (i :: rest) =
      dueAt tree invalidated (x.innerScope tree scope) y rest := by
  simp [dueAt, Node.at?, Node.scopeAt, child]

/-- Whether the traversal looks at a position: no node around it is given a notification, and it is
not in the object of a member that is written to. -/
def Reached (scope : ScopeId) (x : Node) (p : List Nat) : Prop :=
  (∀ q, Inside p q → dueAt tree invalidated scope x q = []) ∧ x.entersTarget p = false

theorem reached_nil (scope : ScopeId) (x : Node) : Reached tree invalidated scope x [] :=
  ⟨fun q inside => absurd inside (Node.not_inside_nil q), rfl⟩

theorem reached_cons {scope : ScopeId} {x y : Node} {i : Nat} (child : x.children[i]? = some y)
    (rest : List Nat) :
    Reached tree invalidated scope x (i :: rest) ↔
      dueIn tree invalidated x scope = [] ∧ x.isTargetObject i = false ∧
        Reached tree invalidated (x.innerScope tree scope) y rest := by
  have enters : x.entersTarget (i :: rest) = (x.isTargetObject i || y.entersTarget rest) := by
    simp [Node.entersTarget, child]
  unfold Reached
  rw [enters, Bool.or_eq_false_iff]
  constructor
  · rintro ⟨around, object, inner⟩
    refine ⟨around [] (Node.inside_cons_nil i rest), object, fun q inside => ?_, inner⟩
    rw [← dueAt_cons tree invalidated child]
    exact around (i :: q) (Node.inside_cons_cons.2 ⟨rfl, inside⟩)
  · rintro ⟨here, object, around, inner⟩
    refine ⟨fun q inside => ?_, object, inner⟩
    cases q with
    | nil => exact here
    | cons j q =>
      obtain ⟨rfl, deeper⟩ := Node.inside_cons_cons.1 inside
      rw [dueAt_cons tree invalidated child]
      exact around q deeper

/-- A name is due at mutations only. -/
theorem exists_mutation_of_dueAt {scope : ScopeId} {x y : Node} {p : List Nat}
    (found : x.at? p = some y) (due : dueAt tree invalidated scope x p ≠ []) :
    ∃ m : Expression, y = .expression m ∧ m.target?.isSome := by
  cases mutation : y.isMutation with
  | false => simp [dueAt, dueIn, found, Node.mutatedNames_eq_nil mutation] at due
  | true =>
    cases y with
    | expression m => exact ⟨m, rfl, mutation⟩
    | _ => simp [Node.isMutation] at mutation

theorem dueAt_append {scope : ScopeId} {x y : Node} {p : List Nat} (found : x.at? p = some y)
    (q : List Nat) :
    dueAt tree invalidated scope x (p ++ q) =
      dueAt tree invalidated (x.scopeAt tree scope p) y q := by
  induction p generalizing scope x with
  | nil =>
    cases found
    rfl
  | cons i rest ih =>
    obtain ⟨c, child, found⟩ := Option.bind_eq_some_iff.1 found
    rw [List.cons_append, dueAt_cons tree invalidated child, ih found, Node.scopeAt, child]
    rfl

theorem reached_append {scope : ScopeId} {x y : Node} {p : List Nat} (found : x.at? p = some y)
    (q : List Nat) :
    Reached tree invalidated scope x (p ++ q) ↔
      Reached tree invalidated scope x p ∧
        Reached tree invalidated (x.scopeAt tree scope p) y q := by
  induction p generalizing scope x with
  | nil =>
    cases found
    simp [reached_nil, Node.scopeAt]
  | cons i rest ih =>
    obtain ⟨c, child, found⟩ := Option.bind_eq_some_iff.1 found
    rw [List.cons_append, reached_cons tree invalidated child, reached_cons tree invalidated child,
      ih found, Node.scopeAt, child]
    simp only [Option.map_some, Option.getD_some, and_assoc]

variable {tree invalidated}

theorem unwrapped_of_due {stack : ScopeStack} {x : Node}
    (due : dueIn tree invalidated x stack.current ≠ []) :
    unwrapped x (notifyNode tree invalidated stack x) = x := by
  obtain ⟨m, rfl, mutation, eq⟩ := notifyNode_of_due tree invalidated stack due
  simp [eq, unwrapped, Node.isMutation, mutation, notified]

theorem unwrapped_of_nil {stack : ScopeStack} {x : Node}
    (due : dueIn tree invalidated x stack.current = []) :
    unwrapped x (notifyNode tree invalidated stack x) = notifyNode tree invalidated stack x := by
  unfold unwrapped
  split
  · rename_i e last mutation eq
    cases x with
    | expression m =>
      have same := target?_notifyExpression tree invalidated stack due
      rw [show notifyExpression tree invalidated stack m = _ from Node.expression.inj eq] at same
      rw [Node.isMutation, ← same] at mutation
      simp [Expression.target?] at mutation
    | _ => simp [Node.isMutation] at mutation
  · rfl

/-- What stands at a position that is reached is the original with notifications. -/
theorem counterpart?_of_reached {stack : ScopeStack} {x y : Node} {p : List Nat}
    (found : x.at? p = some y) (reached : Reached tree invalidated stack.current x p) :
    counterpart? x (notifyNode tree invalidated stack x) p =
      some (notifyNode tree invalidated (stack.withinAt tree x p) y) := by
  induction p generalizing stack x with
  | nil =>
    cases found
    rfl
  | cons i rest ih =>
    obtain ⟨c, child, found⟩ := Option.bind_eq_some_iff.1 found
    obtain ⟨due, object, inner⟩ := (reached_cons tree invalidated child rest).1 reached
    rw [counterpart?, child, unwrapped_of_nil due, children_notifyNode tree invalidated stack due,
      child, object, ScopeStack.withinAt, child]
    exact ih found (by rwa [ScopeStack.current_within])

/-- What stands at a position that is not reached is the original. -/
theorem counterpart?_of_not_reached {stack : ScopeStack} {x : Node} {p : List Nat}
    (reached : ¬ Reached tree invalidated stack.current x p) :
    counterpart? x (notifyNode tree invalidated stack x) p = x.at? p := by
  induction p generalizing stack x with
  | nil => exact absurd (reached_nil tree invalidated stack.current x) reached
  | cons i rest ih =>
    rw [counterpart?, Node.at?]
    cases child : x.children[i]? with
    | none => rfl
    | some c =>
      rw [reached_cons tree invalidated child] at reached
      -- the traversal stops at a notification here, at a target here, or further in
      by_cases due : dueIn tree invalidated x stack.current = []
      · rw [unwrapped_of_nil due, children_notifyNode tree invalidated stack due, child]
        cases object : x.isTargetObject i with
        | true => exact Node.counterpart?_self c rest
        | false =>
          refine ih fun inner => reached ⟨due, object, ?_⟩
          rwa [← ScopeStack.current_within]
      · rw [unwrapped_of_due due, child]
        exact Node.counterpart?_self c rest

end

end Client

end ReactiveMarkup
