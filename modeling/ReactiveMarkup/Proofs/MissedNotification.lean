import ReactiveMarkup.Proofs.DueNotification

/-!
# Mutations that are left without a notification

A mutation that must notify a name is given its notification only if the traversal gets there. A
mutation that is rewritten is put back as it was, so what is nested in it keeps its bare form: the
inner part of `a = b = 1`, a mutation in a function that is assigned, and one in the object of a
member that is written to. Everywhere else the notification stands right behind the mutation
(`notified_iff_reached`).
-/

namespace ReactiveMarkup.Client

open Script (Expression Statement Node)
open Script.Node (Inside counterpart?)

/-- **Which mutations are notified.** A mutation with a name that is due is followed by a
notification of that name exactly if no mutation around it has a name that is due and it does not
stand in the object of a member that is written to. -/
theorem notified_iff_reached {component : Component} {marker : String} {root rewritten : Node}
    (rewriting : Rewriting component marker root rewritten) {p : List Nat} {m : Expression}
    (found : root.at? p = some (.expression m)) {name : String}
    (due : name ∈ dueAt (component.analyze marker).analysis.scopes
      (component.analyze marker).analysis.invalidated rootScope root p) :
    (∃ names, name ∈ names ∧
        counterpart? root rewritten p = some (.expression (notified m names))) ↔
      (∀ q, Inside p q → dueAt (component.analyze marker).analysis.scopes
          (component.analyze marker).analysis.invalidated rootScope root q = []) ∧
        root.entersTarget p = false := by
  obtain ⟨_, eq, mutation⟩ :=
    exists_mutation_of_dueAt _ _ found (List.ne_nil_of_mem due)
  cases eq
  constructor
  · rintro ⟨names, -, place⟩
    refine Classical.byContradiction fun missed => ?_
    -- what is not reached is the mutation itself, which is no pair of parentheses
    rw [rewriting.counterpart?_of_missed missed, found] at place
    rw [show m = notified m names from Node.expression.inj (Option.some.inj place)] at mutation
    simp [notified, Expression.target?] at mutation
  · intro reached
    exact ⟨_, due, rewriting.counterpart?_of_due found reached (List.ne_nil_of_mem due)⟩

/-- Two assignments in one, of names that the markup shows. -/
def chained : Expression :=
  .assignment "=" (.identifier "a") (.assignment "=" (.identifier "b") (.verbatim "1" []))

/-- A component whose function `f` makes them. -/
def chaining : Component where
  html := [.expression (.identifier "a"), .expression (.identifier "b")]
  script :=
    [.declaration .lexical [⟨.identifier "a", some (.verbatim "0" [])⟩],
      .declaration .lexical [⟨.identifier "b", some (.verbatim "0" [])⟩],
      .function ⟨0, ⟨some "f", false, false, false, [], []⟩, .block [.expression chained]⟩]

/-- The outer assignment is notified. -/
theorem notified_outer_of_chaining :
    ∃ names, "a" ∈ names ∧
      counterpart? (.script chaining.script)
          (.script (notifyScript (chaining.analyze "on:").analysis chaining.script)) [2, 0, 0, 0] =
        some (.expression (notified chained names)) := by
  refine (notified_iff_reached (.script fun _ mem => mem) rfl (by decide +kernel)).2
    ⟨fun q inside => ?_, rfl⟩
  match q, inside with
  | [], _ => rfl
  | [2], _ => rfl
  | [2, 0], _ => rfl
  | [2, 0, 0], _ => rfl
  | [_, _, _, _], ⟨_, _, eq⟩ => simp at eq

/-- The inner assignment must notify `b`, and the script of the client module never does. -/
theorem unnotified_inner_of_chaining :
    "b" ∈ dueAt (chaining.analyze "on:").analysis.scopes
        (chaining.analyze "on:").analysis.invalidated rootScope (.script chaining.script)
        [2, 0, 0, 0, 0] ∧
      notifyScript (chaining.analyze "on:").analysis chaining.script =
        [.declaration .lexical [⟨.identifier "a", some (.verbatim "0" [])⟩],
          .declaration .lexical [⟨.identifier "b", some (.verbatim "0" [])⟩],
          .function ⟨0, ⟨some "f", false, false, false, [], []⟩,
            .block [.expression (notified chained ["a"])]⟩] := by
  have due : notifiedNames (chaining.analyze "on:").analysis.scopes
      (chaining.analyze "on:").analysis.invalidated chained
      (ScopeStack.start.enter (chaining.analyze "on:").analysis.scopes 0).current = ["a"] := by
    decide +kernel
  refine ⟨by decide +kernel, ?_⟩
  generalize (chaining.analyze "on:").analysis = a at due ⊢
  rw [notifyScript, transformStatements_eq]
  simp [chaining, notifyDeclarator, notifyExpression_of_names _ _ _ due]

end ReactiveMarkup.Client
