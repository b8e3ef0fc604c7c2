import ReactiveMarkup.Proofs.Position
import ReactiveMarkup.Reactivity.Declaration

/-!
# What a reactive declaration reads and assigns

What a reactive declaration depends on and assigns is collected by a search of its own, which is
told here by positions: an assignment counts if the way to it leads through statements, initial
values, sequences, parentheses and right-hand sides of assignments only (`Node.collected`). The
search does not look into operands, arguments, functions and the objects of member targets, and an
update does not count as an assignment at all. Of the expressions where it ends it takes the names
that they read (`Node.consultedNames`).

`Dependence.gains_node` says what the search finds in any node; so the assignees are the targets of
the assignments that count (`mem_assignees_iff`), and the dependencies are the other names that are
consulted (`mem_dependencies_iff`). Reactive declarations are the top-level statements with the
reactive label, and what is left of a script are the others (`residue_eq`, `mem_declarations_iff`).
-/

namespace ReactiveMarkup

open Script (Expression Statement Declarator DeclarationKind Node)

namespace Script.Node

/-- The names that a node writes to when it is an assignment. -/
def assignedNames : Node → List String
  | .expression (.assignment _ target _) => target.names
  | _ => []

/-- The names that the search finds read at a node itself: those that an expression reads into which
it does not look, the object whose member an assignment writes, and the target of an assignment that
is not plain. -/
def consultedNames : Node → List String
  | .expression (.assignment _ (.member object _) _) => object.references
  | .expression (.assignment operator target _) => if operator = "=" then [] else target.names
  | .expression (.sequence _) => []
  | .expression (.parenthesized _) => []
  | .expression e => e.references
  | _ => []

/-- Whether a node is no assignment. -/
def NoAssignment (x : Node) : Prop :=
  ∀ operator target right, x ≠ .expression (.assignment operator target right)

/-- Whether the search for assignments goes on in a child of a node. -/
def collects : Node → Nat → Bool
  | .script _, _ => true
  | .statement (.function _), _ => false
  | .statement _, _ => true
  | .declarator _ _, _ => true
  | .function _, _ => false
  | .expression (.assignment operator target right), i =>
    !(isTargetObject (.expression (.assignment operator target right)) i)
  | .expression (.sequence _), _ => true
  | .expression (.parenthesized _), _ => true
  | .expression _, _ => false

/-- Whether the search for assignments comes to a position. -/
def collected : Node → List Nat → Bool
  | _, [] => true
  | x, i :: rest => x.collects i && x.children[i]?.any (·.collected rest)

/-- Whether the search comes to a node that has a name among names of its own. -/
def Finds (own : Node → List String) (x : Node) (name : String) : Prop :=
  ∃ p y, x.at? p = some y ∧ x.collected p = true ∧ name ∈ own y

/-- Whether the search for assignments finds one of a name. -/
def Assigns (x : Node) (name : String) : Prop :=
  ∃ p y, x.at? p = some y ∧ x.collected p = true ∧ name ∈ y.assignedNames

/-- Whether the search finds a reading of a name. -/
def Consults (x : Node) (name : String) : Prop := x.Finds consultedNames name

variable {own : Node → List String} {x : Node} {name : String}

theorem finds_iff :
    x.Finds own name ↔ name ∈ own x ∨
      ∃ i c, x.children[i]? = some c ∧ x.collects i = true ∧ c.Finds own name := by
  constructor
  · rintro ⟨p, y, found, collected, mem⟩
    cases p with
    | nil =>
      cases found
      exact .inl mem
    | cons i rest =>
      obtain ⟨c, child, found⟩ := Option.bind_eq_some_iff.1 found
      rw [Node.collected, child, Bool.and_eq_true] at collected
      exact .inr ⟨i, c, child, collected.1, rest, y, found, collected.2, mem⟩
  · rintro (mem | ⟨i, c, child, collects, rest, y, found, collected, mem⟩)
    · exact ⟨[], x, rfl, rfl, mem⟩
    · refine ⟨i :: rest, y, ?_, ?_, mem⟩
      · rw [at?, child]
        exact found
      · rw [Node.collected, child, collects]
        exact collected

/-- In a node whose children are all searched, what is found is found in a child. -/
theorem finds_of_open (opened : ∀ i, x.collects i = true) (none : own x = []) :
    x.Finds own name ↔ ∃ y ∈ x.children, y.Finds own name := by
  rw [finds_iff, none]
  simp only [List.not_mem_nil, false_or, opened, true_and]
  constructor
  · rintro ⟨i, c, child, finds⟩
    exact ⟨c, List.mem_of_getElem? child, finds⟩
  · rintro ⟨c, mem, finds⟩
    obtain ⟨i, child⟩ := List.mem_iff_getElem?.1 mem
    exact ⟨i, c, child, finds⟩

/-- In a node of which no child is searched, only its own names are found. -/
theorem finds_of_closed (closed : ∀ i, x.collects i = false) :
    x.Finds own name ↔ name ∈ own x := by
  rw [finds_iff]
  simp [closed]

/-- Of an assignment, the right-hand side is searched. -/
theorem finds_assignment_iff {operator : String} {target : Script.Target} {right : Expression} :
    (Node.expression (.assignment operator target right)).Finds own name ↔
      name ∈ own (.expression (.assignment operator target right)) ∨
        (Node.expression right).Finds own name := by
  rw [finds_iff]
  refine or_congr Iff.rfl ?_
  cases target with
  | member object property =>
    constructor
    · rintro ⟨i, c, child, collects, finds⟩
      match i, child with
      | 0, _ => exact absurd collects Bool.false_ne_true
      | 1, child =>
        cases child
        exact finds
    · intro finds
      exact ⟨1, _, rfl, rfl, finds⟩
  | _ =>
    constructor
    · rintro ⟨i, c, child, collects, finds⟩
      match i, child with
      | 0, child =>
        cases child
        exact finds
    · intro finds
      exact ⟨0, _, rfl, rfl, finds⟩

theorem collects_of_noAssignment (plain : x.NoAssignment) (i : Nat) :
    x.collects i = x.collects 0 := by
  cases x with
  | statement s => cases s <;> rfl
  | expression e =>
    cases e with
    | assignment operator target right => exact absurd rfl (plain operator target right)
    | _ => rfl
  | _ => rfl

theorem assignedNames_of_noAssignment (plain : x.NoAssignment) : x.assignedNames = [] := by
  cases x with
  | expression e =>
    cases e with
    | assignment operator target right => exact absurd rfl (plain operator target right)
    | _ => rfl
  | _ => rfl

theorem consultedNames_of_open (opened : x.collects 0 = true) (plain : x.NoAssignment) :
    x.consultedNames = [] := by
  cases x with
  | expression e =>
    cases e with
    | assignment operator target right => exact absurd rfl (plain operator target right)
    | sequence items => rfl
    | parenthesized inner => rfl
    | _ => cases opened
  | _ => rfl

end Script.Node

namespace Dependence

/-- Adds what a node depends on and assigns. -/
def node (d : Dependence) : Node → Dependence
  | .script body => d.statements body
  | .statement s => d.statement s
  | .declarator _ item => d.declarators [item]
  | .function _ => d
  | .expression e => d.expression e

/-- Adds what some nodes depend on and assign. -/
def all (d : Dependence) (xs : List Node) : Dependence := xs.foldl node d

theorem expressions_eq (d : Dependence) (es : List Expression) :
    d.expressions es = d.all (es.map .expression) := by
  induction es generalizing d with
  | nil => rfl
  | cons e rest ih => exact ih _

theorem statements_eq (d : Dependence) (ss : List Statement) :
    d.statements ss = d.all (ss.map .statement) := by
  induction ss generalizing d with
  | nil => rfl
  | cons s rest ih => exact ih _

theorem declarators_eq (d : Dependence) (kind : DeclarationKind) (items : List Declarator) :
    d.declarators items = d.all (items.map (.declarator kind)) := by
  induction items generalizing d with
  | nil => rfl
  | cons item rest ih =>
    obtain ⟨pattern, init⟩ := item
    cases init <;> exact ih _

/-- What one name gains when something is added: it is read there, it is assigned there. -/
structure Gains (name : String) (d d' : Dependence) (reads assigns : Prop) : Prop where
  reads : name ∈ d'.reads ↔ name ∈ d.reads ∨ reads
  assigned : name ∈ d'.assigned ↔ name ∈ d.assigned ∨ assigns

variable {name : String}

theorem gains_all {xs : List Node}
    (each : ∀ x ∈ xs, ∀ d : Dependence,
      Gains name d (d.node x) (x.Consults name) (x.Assigns name)) (d : Dependence) :
    Gains name d (d.all xs) (∃ x ∈ xs, x.Consults name) (∃ x ∈ xs, x.Assigns name) := by
  induction xs generalizing d with
  | nil => exact ⟨by simp [all], by simp [all]⟩
  | cons x rest ih =>
    have first := each x List.mem_cons_self d
    have others := ih (fun y mem => each y (List.mem_cons_of_mem x mem)) (d.node x)
    constructor
    · show name ∈ ((d.node x).all rest).reads ↔ _
      rw [others.reads, first.reads, or_assoc]
      simp
    · show name ∈ ((d.node x).all rest).assigned ↔ _
      rw [others.assigned, first.assigned, or_assoc]
      simp

/-- A node whose children are searched adds what they add. -/
theorem node_of_open {x : Node} (opened : x.collects 0 = true) (plain : x.NoAssignment)
    (d : Dependence) : d.node x = d.all x.children := by
  cases x with
  | script body => exact statements_eq d body
  | declarator kind item =>
    obtain ⟨pattern, init⟩ := item
    cases init <;> rfl
  | function f => cases opened
  | statement s =>
    cases s with
    | function f => cases opened
    | declaration kind items => exact declarators_eq d kind items
    | block id body => exact statements_eq d body
    | conditional test consequent alternate => cases alternate <;> rfl
    | result value => cases value <;> rfl
    | _ => rfl
  | expression e =>
    cases e with
    | sequence items => exact expressions_eq d items
    | parenthesized inner => rfl
    | assignment operator target right => exact absurd rfl (plain operator target right)
    | _ => cases opened

/-- A node whose children are not searched adds the names that it consults itself. -/
theorem node_of_closed {x : Node} (closed : x.collects 0 = false) (plain : x.NoAssignment)
    (d : Dependence) : d.node x = d.read x.consultedNames := by
  cases x with
  | script body => cases closed
  | declarator kind item => cases closed
  | function f => rfl
  | statement s =>
    cases s with
    | function f => rfl
    | _ => cases closed
  | expression e =>
    cases e with
    | sequence items => cases closed
    | parenthesized inner => cases closed
    | assignment operator target right => exact absurd rfl (plain operator target right)
    | _ => rfl

/-- An assignment reads of its target what it consults. -/
theorem readTarget_eq (d : Dependence) (operator : String) (target : Script.Target)
    (right : Expression) :
    d.readTarget operator target =
      d.read (Node.expression (.assignment operator target right)).consultedNames := by
  cases target with
  | member object property => rfl
  | _ =>
    unfold readTarget Node.consultedNames
    dsimp only
    split <;> rfl

/-- **The search finds the readings and the assignments that count**, in every kind of node. -/
theorem gains_node (x : Node) (d : Dependence) :
    Gains name d (d.node x) (x.Consults name) (x.Assigns name) := by
  induction x using Node.induction generalizing d with
  | step x ih =>
    -- only an assignment treats its children differently; of other nodes all or none are searched
    by_cases plain : x.NoAssignment
    · have same := Node.collects_of_noAssignment plain
      cases searched : x.collects 0 with
      | true =>
        have opened : ∀ i, x.collects i = true := fun i => (same i).trans searched
        have gains := gains_all ih d
        rw [node_of_open searched plain]
        constructor
        · rw [gains.reads, Node.Consults,
            Node.finds_of_open opened (Node.consultedNames_of_open searched plain)]
          rfl
        · rw [gains.assigned]
          exact or_congr_right
            (Node.finds_of_open opened (Node.assignedNames_of_noAssignment plain)).symm
      | false =>
        have closed : ∀ i, x.collects i = false := fun i => (same i).trans searched
        rw [node_of_closed searched plain]
        refine ⟨mem_addNames.trans (or_congr_right (Node.finds_of_closed closed).symm), ?_⟩
        have none : ¬ x.Assigns name := by
          intro assigns
          have mem := (Node.finds_of_closed closed).1 assigns
          rw [Node.assignedNames_of_noAssignment plain] at mem
          cases mem
        exact (or_iff_left none).symm
    -- of an assignment the names of the target are noted around the search of the right-hand side
    · obtain ⟨operator, target, right, rfl⟩ : ∃ operator target right,
          x = .expression (.assignment operator target right) := by
        simpa [Node.NoAssignment] using plain
      have below := ih (.expression right) (by simp [Node.children, Node.ofExpression])
        (d.readTarget operator target)
      have finds (own : Node → List String) :
          (Node.expression (.assignment operator target right)).Finds own name ↔ _ :=
        Node.finds_assignment_iff
      have before := readTarget_eq d operator target right
      constructor
      · refine below.reads.trans ?_
        rw [before, Node.Consults, Node.Consults, finds, ← or_assoc]
        exact or_congr_left mem_addNames
      · have assigned : name ∈ ((d.readTarget operator target).expression right).assigned ↔
            name ∈ d.assigned ∨ (Node.expression right).Assigns name := by
          refine below.assigned.trans ?_
          rw [before]
          rfl
        refine mem_addNames.trans ?_
        rw [assigned, or_assoc, @or_comm _ (name ∈ target.names)]
        exact or_congr_right (finds Node.assignedNames).symm

end Dependence

/-- The assignees of a reactive declaration are the targets of the assignments in its body that
count. -/
theorem mem_assignees_iff {index : Nat} {body : Statement} {name : String} :
    name ∈ (ReactiveDeclaration.ofBody index body).assignees ↔
      (Node.statement body).Assigns name := by
  have gains : Dependence.Gains name _ _ _ _ :=
    Dependence.gains_node (.statement body) ⟨[], []⟩
  exact gains.assigned.trans (or_iff_right List.not_mem_nil)

/-- The dependencies are the names that the search finds read, without the assignees. -/
theorem mem_dependencies_iff {index : Nat} {body : Statement} {name : String} :
    name ∈ (ReactiveDeclaration.ofBody index body).dependencies ↔
      (Node.statement body).Consults name ∧
        name ∉ (ReactiveDeclaration.ofBody index body).assignees := by
  have gains : Dependence.Gains name _ _ _ _ :=
    Dependence.gains_node (.statement body) ⟨[], []⟩
  have reads := gains.reads.trans (or_iff_right List.not_mem_nil)
  rw [← reads]
  simp [ReactiveDeclaration.ofBody, Dependence.node]

/-! ## Reactive declarations in a script -/

/-- Whether a statement is a reactive declaration. -/
def Script.Statement.isReactive : Statement → Bool
  | .labeled label _ => label = reactiveLabel
  | _ => false

theorem Script.Statement.isReactive_iff {s : Statement} :
    s.isReactive = true ↔ ∃ body, s = .labeled reactiveLabel body := by
  cases s with
  | labeled label body => simp [isReactive]
  | _ => simp [isReactive]

theorem extractFrom_of_reactive (index : Nat) (body : Statement) (rest : List Statement) :
    extractFrom index (.labeled reactiveLabel body :: rest) =
      { extractFrom (index + 1) rest with
        declarations := .ofBody index body :: (extractFrom (index + 1) rest).declarations } := by
  simp [extractFrom]

theorem extractFrom_of_not_reactive (index : Nat) {s : Statement} (plain : s.isReactive = false)
    (rest : List Statement) :
    extractFrom index (s :: rest) =
      { extractFrom (index + 1) rest with
        residue := s :: (extractFrom (index + 1) rest).residue } := by
  cases s with
  | labeled label body =>
    have other : label ≠ reactiveLabel := by simpa [Script.Statement.isReactive] using plain
    simp [extractFrom, other]
  | _ => rfl

/-- What is left of a script are the statements that are no reactive declarations. -/
theorem residue_eq (index : Nat) (script : List Statement) :
    (extractFrom index script).residue = script.filter fun s => !s.isReactive := by
  induction script generalizing index with
  | nil => rfl
  | cons s rest ih =>
    cases reactive : s.isReactive with
    | true =>
      obtain ⟨body, rfl⟩ := Script.Statement.isReactive_iff.1 reactive
      simp [extractFrom_of_reactive, ih, reactive]
    | false => simp [extractFrom_of_not_reactive, ih, reactive]

/-- A script has the reactive declarations that its statements with the reactive label make. -/
theorem mem_declarations_iff {index : Nat} {script : List Statement} {d : ReactiveDeclaration} :
    d ∈ (extractFrom index script).declarations ↔
      ∃ i body, script[i]? = some (.labeled reactiveLabel body) ∧ d = .ofBody (index + i) body := by
  induction script generalizing index with
  | nil => simp [extractFrom]
  | cons s rest ih =>
    have shifted : (∃ i body, rest[i]? = some (.labeled reactiveLabel body) ∧
          d = .ofBody (index + 1 + i) body) ↔
        ∃ i body, (s :: rest)[i + 1]? = some (.labeled reactiveLabel body) ∧
          d = .ofBody (index + (i + 1)) body := by
      simp only [List.getElem?_cons_succ, Nat.add_assoc, Nat.add_comm 1]
    rw [← Nat.or_exists_add_one, ← shifted, ← ih]
    cases reactive : s.isReactive with
    | true =>
      obtain ⟨body, rfl⟩ := Script.Statement.isReactive_iff.1 reactive
      simp [extractFrom_of_reactive]
    | false =>
      have other : ∀ body, s ≠ .labeled reactiveLabel body := by
        rintro body rfl
        simp [Script.Statement.isReactive] at reactive
      simp [extractFrom_of_not_reactive, reactive, other]

end ReactiveMarkup
