import ReactiveMarkup.Proofs.RecordedReference

/-!
# Names that a reactive declaration reports

A reactive declaration reports the names that it reads and assigns without looking at scopes. This
module says on account of which occurrences of a name it does so (`Node.ReadsFor`,
`Node.WritesFor`). The occurrences in functions that take the name for their own are left out, so an
occurrence that counts belongs to the root or is free exactly if no block around it, in the body of
the declaration, binds the name (`reportsNames`). A name that a block of the body declares is
therefore reported on account of its uses in that block (`leaked_of_blockState`).
-/

namespace ReactiveMarkup

open Script (Expression Statement Target Node)
open Script.Node (Inside)

namespace Script

/-- Whether the chain of accesses that an expression is ends at a name, and where. -/
inductive Expression.RootAt : Expression → List Nat → String → Prop
  | identifier (name : String) : RootAt (.identifier name) [] name
  | verbatim {source : String} {references : List String} {name : String}
      (first : references.head? = some name) : RootAt (.verbatim source references) [] name
  | member {object : Expression} {p : List Nat} {name : String} (property : String)
      (optional : Bool) (root : object.RootAt p name) :
      RootAt (.member object property optional) (0 :: p) name
  | parenthesized {inner : Expression} {p : List Nat} {name : String} (root : inner.RootAt p name) :
      RootAt (.parenthesized inner) (0 :: p) name

theorem Expression.root?_eq_some_iff {e : Expression} {name : String} :
    e.root? = some name ↔ ∃ p, e.RootAt p name := by
  constructor
  · intro root
    fun_induction Expression.root? e with
    | case1 name' =>
      cases root
      exact ⟨[], .identifier _⟩
    | case2 object property optional ih =>
      obtain ⟨p, root⟩ := ih root
      exact ⟨0 :: p, .member property optional root⟩
    | case3 inner ih =>
      obtain ⟨p, root⟩ := ih root
      exact ⟨0 :: p, .parenthesized root⟩
    | case4 source references => exact ⟨[], .verbatim root⟩
    | case5 => cases root
  · rintro ⟨p, root⟩
    induction root with
    | identifier name => rfl
    | verbatim first => exact first
    | member property optional root ih => exact ih
    | parenthesized root ih => exact ih

namespace Node

/-- At which places in it an assignment writes to a name. -/
inductive WritesAt : Node → List Nat → String → Prop
  | own {operator : String} {target : Target} {right : Expression} {name : String}
      (mem : name ∈ target.ownNames) :
      WritesAt (.expression (.assignment operator target right)) [] name
  | member {operator property : String} {object right : Expression} {p : List Nat} {name : String}
      (root : object.RootAt p name) :
      WritesAt (.expression (.assignment operator (.member object property) right)) (0 :: p) name

/-- At which places in it an expression is found to read a name: where it is seen, in the expression
or in the object whose member it writes, or where the assignment that it is also reads. -/
inductive ConsultsAt : Node → List Nat → String → Prop
  | read {e : Expression} {p : List Nat} {name : String}
      (ends : (Node.expression e).collects 0 = false) (plain : (Node.expression e).NoAssignment)
      (sees : (Node.expression e).Sees p name) : ConsultsAt (.expression e) p name
  | object {operator property : String} {object right : Expression} {p : List Nat} {name : String}
      (sees : (Node.expression object).Sees p name) :
      ConsultsAt (.expression (.assignment operator (.member object property) right)) (0 :: p) name
  | compound {operator : String} {target : Target} {right : Expression} {name : String}
      (notPlain : operator ≠ "=") (mem : name ∈ target.ownNames) :
      ConsultsAt (.expression (.assignment operator target right)) [] name

variable {x : Node} {name : String}

theorem mem_assignedNames_iff_writesAt : name ∈ x.assignedNames ↔ ∃ p, x.WritesAt p name := by
  constructor
  · intro mem
    cases x with
    | expression e =>
      cases e with
      | assignment operator target right =>
        cases target with
        | member object property =>
          obtain ⟨p, root⟩ := Expression.root?_eq_some_iff.1 (Option.mem_toList.1 mem)
          exact ⟨0 :: p, .member root⟩
        | identifier name' => exact ⟨[], .own mem⟩
        | verbatim source names => exact ⟨[], .own mem⟩
      | _ => cases mem
    | _ => cases mem
  · rintro ⟨p, writes⟩
    cases writes with
    | @own operator target right _ mem =>
      cases target with
      | member object property => exact absurd mem List.not_mem_nil
      | identifier name' => exact mem
      | verbatim source names => exact mem
    | member root => exact Option.mem_toList.2 (Expression.root?_eq_some_iff.2 ⟨_, root⟩)

theorem mem_consultedNames_iff : name ∈ x.consultedNames ↔ ∃ p, x.ConsultsAt p name := by
  constructor
  · intro mem
    cases x with
    | expression e =>
      cases e with
      | assignment operator target right =>
        cases target with
        | member object property =>
          obtain ⟨p, sees⟩ := Expression.mem_references_iff.1 mem
          exact ⟨0 :: p, .object sees⟩
        | _ =>
          -- only an assignment with an operator reads the name that it assigns to
          by_cases plain : operator = "="
          · simp [consultedNames, plain] at mem
          · refine ⟨[], .compound plain ?_⟩
            simpa [consultedNames, plain, Target.names, Target.ownNames] using mem
      | sequence items => cases mem
      | parenthesized inner => cases mem
      | _ =>
        obtain ⟨p, sees⟩ := Expression.mem_references_iff.1 mem
        exact ⟨p, .read rfl (by intro operator target right same; cases same) sees⟩
    | _ => cases mem
  · rintro ⟨p, consults⟩
    cases consults with
    | @read e _ _ ends plain sees =>
      have mem := Expression.mem_references_iff.2 ⟨p, sees⟩
      cases e with
      | assignment operator target right => exact absurd rfl (plain operator target right)
      | sequence items => cases ends
      | parenthesized inner => cases ends
      | _ => exact mem
    | object sees => exact Expression.mem_references_iff.2 ⟨_, sees⟩
    | @compound operator target right _ notPlain mem =>
      cases target with
      | member object property => cases mem
      | identifier name' =>
        simpa [consultedNames, notPlain, Target.names, Target.ownNames] using mem
      | verbatim source names =>
        simpa [consultedNames, notPlain, Target.names, Target.ownNames] using mem

/-! ## Occurrences that nothing in an expression binds -/

/-- Whether a name occurs at a position of a node where nothing in the node binds it. -/
structure OccursFree (x : Node) (p : List Nat) (name : String) : Prop where
  here : ∃ y, x.at? p = some y ∧ name ∈ y.ownReferences
  unbound : x.Unbound p name

/-- What is seen of a name lies in no function that takes the name for its own. -/
theorem Sees.occursFree {e : Expression} {p : List Nat} (sees : (Node.expression e).Sees p name) :
    (Node.expression e).OccursFree p name := by
  obtain ⟨⟨⟨y, found, mem⟩, passed⟩, -⟩ := sees
  exact ⟨⟨y, found, mem_ownReferences_of_ownReads mem⟩,
    unbound_of_not_localized fun q f inside around => passed q _ inside around⟩

theorem sees_of_rootAt {e : Expression} {p : List Nat} (root : e.RootAt p name) :
    (Node.expression e).Sees p name := by
  refine ⟨?_, not_declares_expression e name⟩
  induction root with
  | identifier name => exact readsAt_nil.2 (List.mem_singleton.2 rfl)
  | verbatim first => exact readsAt_nil.2 (List.mem_of_head? first)
  | member property optional root ih => exact readsAt_cons.2 ⟨trivial, _, rfl, ih⟩
  | parenthesized root ih => exact readsAt_cons.2 ⟨trivial, _, rfl, ih⟩

/-- What occurs in the object of a member occurs in the assignment to the member. -/
theorem OccursFree.assignment {operator property : String} {object right : Expression}
    {p : List Nat} (occurs : (Node.expression object).OccursFree p name) :
    (Node.expression (.assignment operator (.member object property) right)).OccursFree (0 :: p)
      name := by
  refine ⟨occurs.here, fun q z inside found binds => ?_⟩
  cases q with
  | nil =>
    cases found
    cases binds.isScope
  | cons j q =>
    obtain ⟨rfl, within⟩ := inside_cons_cons.1 inside
    exact occurs.unbound q z within found binds

theorem occursFree_target {operator : String} {target : Target} {right : Expression}
    (mem : name ∈ target.ownNames) :
    (Node.expression (.assignment operator target right)).OccursFree [] name :=
  ⟨⟨_, rfl, mem⟩, fun q _ inside => absurd inside (not_inside_nil q)⟩

theorem WritesAt.occursFree {p : List Nat} (writes : x.WritesAt p name) :
    x.OccursFree p name := by
  cases writes with
  | own mem => exact occursFree_target mem
  | member root => exact (sees_of_rootAt root).occursFree.assignment

theorem ConsultsAt.occursFree {p : List Nat} (consults : x.ConsultsAt p name) :
    x.OccursFree p name := by
  cases consults with
  | read ends plain sees => exact sees.occursFree
  | object sees => exact sees.occursFree.assignment
  | compound notPlain mem => exact occursFree_target mem

/-! ## Occurrences that the search comes to -/

/-- Whether the search comes to a node with a name at a place in it. -/
def FindsAt (here : Node → List Nat → String → Prop) (x : Node) (p : List Nat) (name : String) :
    Prop :=
  ∃ q r y, p = q ++ r ∧ x.at? q = some y ∧ x.collected q = true ∧ here y r name

theorem finds_iff_exists {own : Node → List String} {here : Node → List Nat → String → Prop}
    (places : ∀ y : Node, name ∈ own y ↔ ∃ r, here y r name) :
    x.Finds own name ↔ ∃ p, x.FindsAt here p name := by
  constructor
  · rintro ⟨q, y, found, collected, mem⟩
    obtain ⟨r, place⟩ := (places y).1 mem
    exact ⟨q ++ r, q, r, y, rfl, found, collected, place⟩
  · rintro ⟨_, q, r, y, rfl, found, collected, place⟩
    exact ⟨q, y, found, collected, (places y).2 ⟨r, place⟩⟩

/-- The search goes into no function. -/
theorem not_function_of_collected {q q' : List Nat} (collected : x.collected q = true)
    (inside : Inside q q') (f : Function) : x.at? q' ≠ some (.function f) := by
  induction q generalizing x q' with
  | nil => exact absurd inside (not_inside_nil q')
  | cons i rest ih =>
    rw [Node.collected, Bool.and_eq_true] at collected
    intro found
    cases q' with
    | nil =>
      cases found
      cases collected.1
    | cons j q' =>
      obtain ⟨rfl, within⟩ := inside_cons_cons.1 inside
      obtain ⟨c, child, found⟩ := Option.bind_eq_some_iff.1 found
      rw [child] at collected
      exact ih collected.2 within found

/-- What stands around a position inside a node stands around the node or inside it. -/
theorem inside_append {p q r : List Nat} (inside : Inside (q ++ r) p) :
    Inside q p ∨ ∃ r', p = q ++ r' ∧ Inside r r' := by
  induction q generalizing p with
  | nil => exact .inr ⟨p, rfl, inside⟩
  | cons i rest ih =>
    cases p with
    | nil => exact .inl (inside_cons_nil i rest)
    | cons j p =>
      obtain ⟨rfl, within⟩ := inside_cons_cons.1 inside
      rcases ih within with before | ⟨r', rfl, deeper⟩
      · exact .inl (inside_cons_cons.2 ⟨rfl, before⟩)
      · exact .inr ⟨r', rfl, deeper⟩

/-- Whether a block around a position binds a name. -/
def BlockBinds (x : Node) (p : List Nat) (name : String) : Prop :=
  ∃ q id body, Inside p q ∧ x.at? q = some (.statement (.block id body)) ∧
    (Node.statement (.block id body)).Binds name

/-- An occurrence to which the search comes belongs to the root or is free unless a block around it
binds the name. -/
theorem FindsAt.rootOrFree_iff {here : Node → List Nat → String → Prop}
    (free : ∀ {y : Node} {r : List Nat}, here y r name → y.OccursFree r name) {p : List Nat}
    (finds : x.FindsAt here p name) : x.RootOrFree p name ↔ ¬ x.BlockBinds p name := by
  obtain ⟨q, r, y, rfl, found, collected, place⟩ := finds
  rw [rootOrFree_iff_scopes]
  constructor
  · rintro unbound ⟨q', id, body, inside, around, binds⟩
    exact unbound q' _ inside around rfl binds
  · intro noBlock q' z inside around scope binds
    rcases inside_append inside with before | ⟨r', rfl, within⟩
    · cases z with
      | script body => cases scope
      | function f => exact not_function_of_collected collected before f around
      | statement s =>
        cases s with
        | block id body => exact noBlock ⟨q', id, body, inside, around, binds⟩
        | _ => cases scope
      | declarator kind d => cases scope
      | expression e => cases scope
    · rw [at?_append, found] at around
      exact (free place).unbound r' z within around binds

/-- Whether a reactive declaration with a body reports that it assigns a name on account of what
stands at a position of the body. -/
def WritesFor (x : Node) (p : List Nat) (name : String) : Prop := x.FindsAt WritesAt p name

/-- Whether a reactive declaration with a body finds a name read on account of what stands at a
position of the body. -/
def ReadsFor (x : Node) (p : List Nat) (name : String) : Prop := x.FindsAt ConsultsAt p name

theorem FindsAt.occurs {here : Node → List Nat → String → Prop}
    (free : ∀ {y : Node} {r : List Nat}, here y r name → y.OccursFree r name) {p : List Nat}
    (finds : x.FindsAt here p name) : ∃ y, x.at? p = some y ∧ name ∈ y.ownReferences := by
  obtain ⟨q, r, y, rfl, found, -, place⟩ := finds
  rw [at?_append, found]
  exact (free place).here

/-- Around the body of a reactive declaration there is no function or block. -/
theorem rootOrFree_body {script : List Statement} {templates : List Expression} {i : Nat}
    {body : Statement} (stands : script[i]? = some (.labeled reactiveLabel body)) (p : List Nat) :
    (program script templates).RootOrFree (i :: 0 :: p) name ↔
      (Node.statement body).RootOrFree p name := by
  have frames : (program script templates).frames (i :: 0 :: p) =
      (Node.statement body).frames p := by
    rw [frames, children_program_reactive_iff.2 stands]
    simp [Node.frames, children, ofStatement, frame?, program]
  rw [RootOrFree, RootOrFree, frames]

end Node

end Script

/-! ## Reported names -/

/-- On account of what the reactive declaration with a body reports names, where the body stands
below the `i`-th statement of a program. -/
structure Reports (root : Node) (i : Nat) (body : Statement) (d : ReactiveDeclaration) : Prop where
  assignees : ∀ name, name ∈ d.assignees ↔ ∃ p, (Node.statement body).WritesFor p name
  dependencies : ∀ name, name ∈ d.dependencies ↔
    (∃ p, (Node.statement body).ReadsFor p name) ∧ name ∉ d.assignees
  /-- At each of these positions the name occurs. -/
  occurs : ∀ p name,
    (Node.statement body).WritesFor p name ∨ (Node.statement body).ReadsFor p name →
      ∃ y, root.at? (i :: 0 :: p) = some y ∧ name ∈ y.ownReferences
  /-- The occurrence belongs to the root or is free unless a block of the body around it binds the
  name. -/
  rootOrFree : ∀ p name,
    (Node.statement body).WritesFor p name ∨ (Node.statement body).ReadsFor p name →
      (root.RootOrFree (i :: 0 :: p) name ↔ ¬ (Node.statement body).BlockBinds p name)

/-- What it means that the reactive declarations of a component report names without looking at
blocks. -/
structure ReportsNames (component : Component) (marker : String) : Prop where
  declared : ∀ d ∈ (component.analyze marker).analysis.declarations, ∃ i body,
    component.script[i]? = some (.labeled reactiveLabel body) ∧
      Reports component.program i body d

theorem reports_ofBody {script : List Statement} {templates : List Expression} {i : Nat}
    {body : Statement} (stands : script[i]? = some (.labeled reactiveLabel body)) (index : Nat) :
    Reports (program script templates) i body (.ofBody index body) where
  assignees name := mem_assignees_iff.trans
    (Node.finds_iff_exists fun _ => Node.mem_assignedNames_iff_writesAt)
  dependencies name := mem_dependencies_iff.trans
    (and_congr_left fun _ => Node.finds_iff_exists fun _ => Node.mem_consultedNames_iff)
  occurs p name reported := by
    rw [Node.at?, children_program_reactive_iff.2 stands]
    exact reported.elim (·.occurs Node.WritesAt.occursFree) (·.occurs Node.ConsultsAt.occursFree)
  rootOrFree p name reported := by
    rw [Node.rootOrFree_body stands]
    exact reported.elim (·.rootOrFree_iff Node.WritesAt.occursFree)
      (·.rootOrFree_iff Node.ConsultsAt.occursFree)

/-- **Reactive declarations report names on account of occurrences that belong to the root or are
free, unless a block of the body binds them.** For every component, the assignees of each are the
names that assignments in its body write, as far as the search for them goes, and the dependencies
are the other names that it finds read. -/
theorem reportsNames (component : Component) (marker : String) :
    ReportsNames component marker where
  declared d mem := by
    obtain ⟨i, body, stands, rfl⟩ := mem_declarations_iff.1 ((orderReactive_perm _).mem_iff.1 mem)
    exact ⟨i, body, stands, reports_ofBody stands _⟩

/-- `let a = 1; $: { let s = a; let t; t = s; b = t; }` with markup that shows `b`. -/
def blockState : Component where
  html := [.expression (.identifier "b")]
  script :=
    [.declaration .lexical [⟨.identifier "a", some (.verbatim "1" [])⟩],
      .labeled reactiveLabel (.block 1
        [.declaration .lexical [⟨.identifier "s", some (.identifier "a")⟩],
          .declaration .lexical [⟨.identifier "t", none⟩],
          .expression (.assignment "=" (.identifier "t") (.identifier "s")),
          .expression (.assignment "=" (.identifier "b") (.identifier "t"))])]

/-- The names `s` and `t` of the block are reported, the one as a dependency and the other as an
assignee, so the one is notified and the other is declared by the module. Neither belongs to the
root or is free anywhere in the body. -/
theorem leaked_of_blockState :
    ((blockState.analyze "on:").analysis.declarations.map fun d => (d.dependencies, d.assignees)) =
        [(["a", "s"], ["t", "b"])] ∧
      "s" ∈ (blockState.analyze "on:").analysis.invalidated ∧
      (blockState.analyze "on:").analysis.undeclaredAssignees = ["t", "b"] ∧
      ∀ p ∈ blockState.program.positions, ∀ name ∈ ["s", "t"],
        name ∈ ((blockState.program.at? p).map Node.ownReferences).getD [] →
          ¬ blockState.program.RootOrFree p name :=
  ⟨by decide +kernel, by decide +kernel, by decide +kernel, by decide +kernel⟩

end ReactiveMarkup
