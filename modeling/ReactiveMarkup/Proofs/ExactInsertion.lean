import ReactiveMarkup.Proofs.DueNotification
import ReactiveMarkup.Proofs.NotificationErasure

/-!
# Rewriting inserts the notifications that are due, and nothing else

A tree of a client module differs from the original by notifications only. Each stands behind a
mutation and lists the names that are due there; and every mutation with a name that is due has one,
unless the traversal stops before it: at a mutation around it that has one, or at the object of a
member that is written to (`ExactInsertion`).
-/

namespace ReactiveMarkup.Client

open Script (Expression Statement Node)
open Script.Node (Inside counterpart?)

/-- Whether the node of the original at a position has a notification in a rewritten tree. -/
def Wrapped (root rewritten : Node) (p : List Nat) : Prop :=
  ∃ y, counterpart? root rewritten p = some y ∧ IsNotified y

section

variable {tree : ScopeTree} {invalidated : NameSet}

theorem isNotified_notifyNode {stack : ScopeStack} {x : Node}
    (silent : ¬ x.Mentions Vocabulary.update) :
    IsNotified (notifyNode tree invalidated stack x) ↔
      dueIn tree invalidated x stack.current ≠ [] := by
  constructor
  · intro isNotified due
    have before := isNotified_of_notifyNode tree invalidated stack due isNotified
    exact silent (mentions_of_isNotified before)
  · intro due
    obtain ⟨m, -, -, eq⟩ := notifyNode_of_due tree invalidated stack due
    exact ⟨m, _, false, eq⟩

theorem wrapped_iff_reached {stack : ScopeStack} {x y : Node} {p : List Nat}
    (silent : ¬ x.Mentions Vocabulary.update) (found : x.at? p = some y) :
    Wrapped x (notifyNode tree invalidated stack x) p ↔
      dueAt tree invalidated stack.current x p ≠ [] ∧
        Reached tree invalidated stack.current x p := by
  have silent' : ¬ y.Mentions Vocabulary.update := fun mentions => silent (mentions.of_at? found)
  by_cases reached : Reached tree invalidated stack.current x p
  · have same : dueAt tree invalidated stack.current x p =
        dueIn tree invalidated y (stack.withinAt tree x p).current := by
      simp [dueAt, found, ScopeStack.current_withinAt]
    simp [Wrapped, counterpart?_of_reached found reached, reached, same,
      isNotified_notifyNode silent']
  · have original : ¬ IsNotified y := fun isNotified => silent' (mentions_of_isNotified isNotified)
    simp [Wrapped, counterpart?_of_not_reached reached, reached, found, original]

/-- A position is reached if no node around it has a notification. -/
theorem reached_iff {stack : ScopeStack} {x y : Node} {p : List Nat}
    (silent : ¬ x.Mentions Vocabulary.update) (found : x.at? p = some y) :
    Reached tree invalidated stack.current x p ↔
      (∀ q, Inside p q → ¬ Wrapped x (notifyNode tree invalidated stack x) q) ∧
        x.entersTarget p = false := by
  constructor
  · rintro ⟨around, free⟩
    refine ⟨fun q inside isWrapped => ?_, free⟩
    obtain ⟨z, above⟩ := Node.at?_of_inside inside found
    exact ((wrapped_iff_reached silent above).1 isWrapped).1 (around q inside)
  · rintro ⟨around, free⟩
    refine ⟨fun q inside => ?_, free⟩
    -- the outermost node around `p` with a name that is due would have a notification
    induction length : q.length using Nat.strongRecOn generalizing q with
    | ind n ih =>
      refine Decidable.byContradiction fun due => ?_
      obtain ⟨z, above⟩ := Node.at?_of_inside inside found
      refine around q inside ((wrapped_iff_reached silent above).2 ⟨due, fun r outer => ?_, ?_⟩)
      · refine ih r.length ?_ r (inside.trans outer) rfl
        obtain ⟨i, rest, rfl⟩ := outer
        simp [← length]
      · exact Node.entersTarget_of_inside inside free

/-- A mutation with its notification holds no other notification. -/
theorem not_notified_below {m e : Expression} {names : List String} {arguments : List Expression}
    {optional : Bool} {i : Nat} {rest : List Nat}
    (silent : ¬ (Node.expression m).Mentions Vocabulary.update) :
    (Node.expression (notified m names)).at? (i :: rest) ≠
      some (.expression (wrapped e arguments optional)) := by
  intro found
  have at_mutation : ∀ rest, (Node.expression m).at? rest ≠
      some (.expression (wrapped e arguments optional)) := fun rest found =>
    silent (Node.Mentions.of_at? found (mentions_of_isNotified ⟨e, arguments, optional, rfl⟩))
  match i, rest, found with
  | 0, 0 :: rest, found => exact at_mutation rest found
  | 0, 1 :: 0 :: _ :: _, found => cases found
  | 0, 1 :: 1 :: _ :: _, found => cases found

/-- A notification of a rewritten tree stands at a mutation with names that are due, and lists
them. -/
theorem stands_of_notifyNode {stack : ScopeStack} {x : Node} {p : List Nat} {m : Expression}
    {arguments : List Expression} {optional : Bool} (silent : ¬ x.Mentions Vocabulary.update)
    (found : (notifyNode tree invalidated stack x).at? p =
      some (.expression (wrapped m arguments optional))) :
    x.at? p = some (.expression m) ∧ m.target?.isSome ∧
      wrapped m arguments optional = notified m (dueAt tree invalidated stack.current x p) ∧
      dueAt tree invalidated stack.current x p ≠ [] := by
  induction p generalizing x stack with
  | nil =>
    have eq : notifyNode tree invalidated stack x = .expression (wrapped m arguments optional) :=
      Option.some.inj found
    have due := (isNotified_notifyNode silent).1 ⟨m, arguments, optional, eq⟩
    obtain ⟨m', rfl, mutation, eq'⟩ := notifyNode_of_due tree invalidated stack due
    have same := Node.expression.inj (eq.symm.trans eq')
    obtain rfl : m = m' := by
      simp only [wrapped, notified, Expression.parenthesized.injEq, Expression.sequence.injEq,
        List.cons.injEq] at same
      exact same.1
    exact ⟨rfl, mutation, same, due⟩
  | cons i rest ih =>
    by_cases due : dueIn tree invalidated x stack.current = []
    · obtain ⟨c', child', found⟩ := Option.bind_eq_some_iff.1 found
      rw [children_notifyNode tree invalidated stack due] at child'
      obtain ⟨c, child, rfl⟩ := Option.map_eq_some_iff.1 child'
      have silent' : ¬ c.Mentions Vocabulary.update := fun mentions =>
        silent (mentions.of_child (List.mem_of_getElem? child))
      cases object : x.isTargetObject i with
      | true =>
        -- the child is the original, which has no notification
        rw [object] at found
        have mentions := mentions_of_isNotified ⟨m, arguments, optional, rfl⟩
        exact absurd (mentions.of_at? found) silent'
      | false =>
        rw [object] at found
        have inner := ih silent' found
        rw [ScopeStack.current_within] at inner
        rw [dueAt_cons tree invalidated child, Node.at?, child]
        exact inner
    · obtain ⟨m', rfl, mutation, eq⟩ := notifyNode_of_due tree invalidated stack due
      rw [eq] at found
      exact absurd found (not_notified_below silent)

end

/-- What it means that a tree is rewritten by inserting the notifications that are due. -/
structure ExactInsertion (invalidated : NameSet) (root rewritten : Node) : Prop where
  /-- Without the notifications the tree is the original. -/
  restored : rewritten.withoutNotifications = root
  /-- A notification stands at a mutation of the original, lists the names that are due there in the
  order of the target, and there is at least one. -/
  stands : ∀ p m arguments optional,
    rewritten.at? p = some (.expression (wrapped m arguments optional)) →
      root.at? p = some (.expression m) ∧ m.target?.isSome ∧
        wrapped m arguments optional = notified m (root.dueNames invalidated p) ∧
        root.dueNames invalidated p ≠ []
  /-- A node has a notification exactly if a name is due there and it lies neither below another
  node with one nor in the object of a member that is written to. -/
  wrapped_iff : ∀ p y, root.at? p = some y →
    (Wrapped root rewritten p ↔
      root.dueNames invalidated p ≠ [] ∧ (∀ q, Inside p q → ¬ Wrapped root rewritten q) ∧
        root.entersTarget p = false)

/-- **Rewriting is an exact insertion of notifications**, for every tree of a component that does
not mention the notifying function itself. -/
theorem exactInsertion_of_rewriting {component : Component} {marker : String}
    {root rewritten : Node} (rewriting : Rewriting component marker root rewritten)
    (distinct : DistinctIds component) (silent : ¬ root.Mentions Vocabulary.update) :
    ExactInsertion (component.analyze marker).analysis.invalidated root rewritten where
  restored := by
    rw [rewriting.rewritten_eq]
    exact withoutNotifications_notifyNode silent .start
  stands p m arguments optional found := by
    rw [rewriting.rewritten_eq] at found
    have stands := stands_of_notifyNode silent found
    rwa [show ScopeStack.start.current = rootScope from rfl, rewriting.dueAt_eq distinct] at stands
  wrapped_iff p y found := by
    rw [rewriting.rewritten_eq, wrapped_iff_reached silent found, reached_iff silent found,
      show ScopeStack.start.current = rootScope from rfl, rewriting.dueAt_eq distinct]

/-- A counter: the markup shows `n`, and a function adds to it. -/
def counter : Component where
  html := [.expression (.identifier "n")]
  script :=
    [.declaration .lexical [⟨.identifier "n", some (.verbatim "0" [])⟩],
      .function ⟨1, ⟨some "add", false, false, false, [], []⟩,
        .block [.expression (.assignment "+=" (.identifier "n") (.verbatim "1" []))]⟩]

theorem distinctIds_counter : DistinctIds counter := by
  simp only [DistinctIds, counter, topLevel, Fragment.allExpressions, Fragment.expressions,
    Node.ids, Node.subnodes_eq, Node.children, Node.ofStatement, Node.ofFunction,
    Node.ofExpression, Script.Target.object?, List.map_cons, List.map_nil, List.append_nil,
    List.cons_append, List.nil_append, List.flatMap_cons, List.flatMap_nil, Option.toList_some,
    Option.toList_none]
  decide

theorem silent_counter : ¬ (Node.script counter.script).Mentions Vocabulary.update := by
  simp [Node.Mentions, counter, Node.subnodes_eq, Node.children, Node.ofStatement,
    Node.ofFunction, Node.ofExpression, Script.Target.object?]

theorem exactInsertion_counter :
    (Node.script (counter.analyze "on:").component.script).dueNames
        (counter.analyze "on:").analysis.invalidated [1, 0, 0, 0] = ["n"] ∧
      ExactInsertion (counter.analyze "on:").analysis.invalidated
        (.script (counter.analyze "on:").component.script)
        (.script (notifyScript (counter.analyze "on:").analysis
          (counter.analyze "on:").component.script)) :=
  ⟨by decide +kernel,
    exactInsertion_of_rewriting (.residue counter "on:") distinctIds_counter silent_counter⟩

end ReactiveMarkup.Client
