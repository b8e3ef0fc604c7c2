import ReactiveMarkup.Proofs.ResolvedPosition
import ReactiveMarkup.Script.References

/-!
# The names that a piece of script reads

`Expression.references`, `Function.references` and `Statement.references` collect names in one pass
over the tree. This module says by positions which occurrences of a name they see
(`Node.Sees`): the name must stand where it is read and not only assigned, every node on the way out
must pass it on, and the whole piece must not declare it.

Two kinds of node do not pass everything on. A function keeps the names that it declares itself,
wherever in its body (`Function.Localizes`), and of an update only the names that it writes to
count, not what else stands in its target. So an occurrence may go unseen although it refers to a
name of the surroundings.
-/

namespace ReactiveMarkup.Script

open Node (Inside Introduces introduces_iff)
open Resolution (opensFunction)

namespace Node

/-- Whether a name is declared in a node, with no function in between. -/
def Declares (x : Node) (name : String) : Prop :=
  Introduces (fun z => z.ownLexical ++ z.ownVar) opensFunction x name

end Node

/-- Whether a function takes a name for its own: a parameter, its own name, or a name that is
declared anywhere in its body with no other function in between. -/
def Function.Localizes (f : Function) (name : String) : Prop :=
  name ∈ f.signature.locals ∨ ∃ y ∈ Node.ofFunction f, y.Declares name

namespace Node

variable {x : Node} {name : String}

/-- Directly inside an expression stand expressions and functions. -/
theorem children_expression (e : Expression) :
    ∀ y ∈ (Node.expression e).children, (∃ e', y = .expression e') ∨ ∃ f, y = .function f := by
  cases e <;> simp [children, ofExpression, or_imp, forall_and]

theorem declares_iff (opened : opensFunction x = false) :
    x.Declares name ↔ name ∈ x.ownLexical ++ x.ownVar ∨ ∃ y ∈ x.children, y.Declares name := by
  rw [Declares, introduces_iff, opened]
  exact or_congr_right (and_iff_right rfl)

theorem not_declares_function (f : Function) (name : String) :
    ¬ (Node.function f).Declares name := by
  rw [Declares, introduces_iff]
  simp [ownLexical, ownVar, opensFunction]

/-- Nothing is declared in an expression: statements stand in functions only. -/
theorem not_declares_expression (e : Expression) (name : String) :
    ¬ (Node.expression e).Declares name := by
  suffices plain : ∀ x : Node, (∀ e, x = .expression e → ¬ x.Declares name) from
    plain _ e rfl
  intro x
  induction x using Node.induction with
  | step x ih =>
    rintro e rfl declared
    obtain mem | ⟨y, child, declared⟩ := (declares_iff rfl).1 declared
    · simp [ownLexical, ownVar] at mem
    · rcases children_expression e y child with ⟨e', rfl⟩ | ⟨f, rfl⟩
      · exact ih _ child e' rfl declared
      · exact not_declares_function f name declared

/-- The names that a node itself reads. An assignment does not read its target. -/
def ownReads : Node → List String
  | .expression (.assignment _ _ _) => []
  | x => x.ownReferences

/-- Whether a node passes on that a name is read inside it. -/
def Passes : Node → String → Prop
  | .function f, name => ¬ f.Localizes name
  | .expression (.update _ _ target), name => name ∈ target.names
  | _, _ => True

/-- Whether a node reads a name at a position. -/
structure ReadsAt (x : Node) (p : List Nat) (name : String) : Prop where
  here : ∃ y, x.at? p = some y ∧ name ∈ y.ownReads
  passed : ∀ q z, Inside p q → x.at? q = some z → z.Passes name

/-- Whether a node reads a name at some position. -/
def Reads (x : Node) (name : String) : Prop := ∃ p, x.ReadsAt p name

/-- Whether an occurrence of a name counts among the names that a node reads of its
surroundings. -/
structure Sees (x : Node) (p : List Nat) (name : String) : Prop where
  reads : x.ReadsAt p name
  undeclared : ¬ x.Declares name

theorem readsAt_nil : x.ReadsAt [] name ↔ name ∈ x.ownReads := by
  constructor
  · rintro ⟨⟨y, found, mem⟩, -⟩
    cases found
    exact mem
  · intro mem
    exact ⟨⟨x, rfl, mem⟩, fun q z inside => absurd inside (not_inside_nil q)⟩

theorem readsAt_cons {i : Nat} {p : List Nat} :
    x.ReadsAt (i :: p) name ↔
      x.Passes name ∧ ∃ c, x.children[i]? = some c ∧ c.ReadsAt p name := by
  constructor
  · rintro ⟨⟨y, found, mem⟩, passed⟩
    refine ⟨passed [] x (inside_cons_nil i p) rfl, ?_⟩
    obtain ⟨c, child, found⟩ := Option.bind_eq_some_iff.1 found
    refine ⟨c, child, ⟨y, found, mem⟩, fun q z inside found => ?_⟩
    refine passed (i :: q) z (inside_cons_cons.2 ⟨rfl, inside⟩) ?_
    rw [at?, child]
    exact found
  · rintro ⟨own, c, child, ⟨y, found, mem⟩, passed⟩
    refine ⟨⟨y, ?_, mem⟩, fun q z inside found => ?_⟩
    · rw [at?, child]
      exact found
    · cases q with
      | nil =>
        cases found
        exact own
      | cons j q =>
        obtain ⟨rfl, within⟩ := inside_cons_cons.1 inside
        obtain ⟨c', child', found⟩ := Option.bind_eq_some_iff.1 found
        cases child.symm.trans child'
        exact passed q z within found

theorem reads_iff :
    x.Reads name ↔
      name ∈ x.ownReads ∨ x.Passes name ∧ ∃ y ∈ x.children, y.Reads name := by
  constructor
  · rintro ⟨p, reads⟩
    cases p with
    | nil => exact .inl (readsAt_nil.1 reads)
    | cons i p =>
      obtain ⟨passes, c, child, reads⟩ := readsAt_cons.1 reads
      exact .inr ⟨passes, c, List.mem_of_getElem? child, p, reads⟩
  · rintro (mem | ⟨passes, y, child, p, reads⟩)
    · exact ⟨[], readsAt_nil.2 mem⟩
    · obtain ⟨i, child⟩ := List.mem_iff_getElem?.1 child
      exact ⟨i :: p, readsAt_cons.2 ⟨passes, y, child, reads⟩⟩

/-- The name at the root of a chain of accesses is read there. -/
theorem reads_of_root? {e : Expression} (root : e.root? = some name) :
    (Node.expression e).Reads name := by
  fun_induction Expression.root? e with
  | case1 name' =>
    cases root
    exact reads_iff.2 (.inl (List.mem_singleton.2 rfl))
  | case2 object property optional ih =>
    exact reads_iff.2 (.inr ⟨trivial, _, List.mem_singleton.2 rfl, ih root⟩)
  | case3 inner ih =>
    exact reads_iff.2 (.inr ⟨trivial, _, List.mem_singleton.2 rfl, ih root⟩)
  | case4 source references => exact reads_iff.2 (.inl (List.mem_of_head? root))
  | case5 => cases root

/-- An update reads the names that it writes to. -/
theorem reads_update_iff {operator : String} {leading : Bool} {target : Target} :
    (Node.expression (.update operator leading target)).Reads name ↔ name ∈ target.names := by
  rw [reads_iff]
  cases target with
  | member object property =>
    constructor
    · rintro (mem | ⟨passes, -⟩)
      · cases mem
      · exact passes
    · intro mem
      have root : object.root? = some name := by simpa [Target.names] using mem
      exact .inr ⟨mem, _, List.mem_singleton.2 rfl, reads_of_root? root⟩
  | _ =>
    constructor
    · rintro (mem | ⟨passes, -⟩)
      · exact mem
      · exact passes
    · exact .inl

end Node

namespace Usage

/-- Adds what a node reads and declares. -/
def node (u : Usage) : Node → Usage
  | .script body => Statement.allUsageAfter u body
  | .statement s => s.usageAfter u
  | .declarator _ d => Declarator.allUsageAfter u [d]
  | .function f => { u with reads := addNames u.reads f.references }
  | .expression e => { u with reads := e.readsAfter u.reads }

/-- Adds what some nodes read and declare. -/
def all (u : Usage) (xs : List Node) : Usage := xs.foldl node u

theorem expressions_eq (u : Usage) (es : List Expression) :
    { u with reads := Expression.allReadsAfter u.reads es } = u.all (es.map .expression) := by
  induction es generalizing u with
  | nil => rfl
  | cons e rest ih => exact ih { u with reads := e.readsAfter u.reads }

theorem statements_eq (u : Usage) (ss : List Statement) :
    Statement.allUsageAfter u ss = u.all (ss.map .statement) := by
  induction ss generalizing u with
  | nil => rfl
  | cons s rest ih => exact ih _

theorem declarators_eq (u : Usage) (kind : DeclarationKind) (ds : List Declarator) :
    Declarator.allUsageAfter u ds = u.all (ds.map (.declarator kind)) := by
  induction ds generalizing u with
  | nil => rfl
  | cons d rest ih =>
    obtain ⟨pattern, init⟩ := d
    cases init <;> exact ih _

/-- What one name gains when something is added: it is read there, it is declared there. -/
structure Gains (name : String) (u u' : Usage) (reads declares : Prop) : Prop where
  reads : name ∈ u'.reads ↔ name ∈ u.reads ∨ reads
  locals : name ∈ u'.locals ↔ name ∈ u.locals ∨ declares

variable {name : String}

theorem gains_all {xs : List Node}
    (each : ∀ x ∈ xs, ∀ u : Usage, Gains name u (u.node x) (x.Reads name) (x.Declares name))
    (u : Usage) :
    Gains name u (u.all xs) (∃ x ∈ xs, x.Reads name) (∃ x ∈ xs, x.Declares name) := by
  induction xs generalizing u with
  | nil => exact ⟨by simp [all], by simp [all]⟩
  | cons x rest ih =>
    have first := each x List.mem_cons_self u
    have others := ih (fun y mem => each y (List.mem_cons_of_mem x mem)) (u.node x)
    constructor
    · show name ∈ ((u.node x).all rest).reads ↔ _
      rw [others.reads, first.reads, or_assoc]
      simp
    · show name ∈ ((u.node x).all rest).locals ↔ _
      rw [others.locals, first.locals, or_assoc]
      simp

/-- A node other than a function or an update adds what its children add, and then what is its
own. -/
theorem node_eq {x : Node} (opened : opensFunction x = false)
    (noUpdate : ∀ operator leading target, x ≠ .expression (.update operator leading target))
    (u : Usage) :
    u.node x = ⟨addNames (u.all x.children).reads x.ownReads,
      (u.all x.children).locals ++ (x.ownLexical ++ x.ownVar)⟩ := by
  -- most nodes read no name and bind no name themselves
  have plain : ∀ v : Usage, v = ⟨addNames v.reads [], v.locals ++ ([] ++ [])⟩ := by
    intro v
    simp [addNames]
  cases x with
  | script body => exact (statements_eq u body).trans (plain _)
  | function f => simp [opensFunction] at opened
  | declarator kind d =>
    obtain ⟨pattern, init⟩ := d
    have names : (Node.declarator kind ⟨pattern, init⟩).ownLexical ++
        (Node.declarator kind ⟨pattern, init⟩).ownVar = pattern.names := by
      cases kind <;> simp [Node.ownLexical, Node.ownVar, DeclarationKind.isLexical]
    rw [names]
    cases init <;> rfl
  | statement s =>
    cases s with
    | declaration kind items => exact (declarators_eq u kind items).trans (plain _)
    | function f =>
      rw [show (Node.statement (.function f)).ownLexical ++ (Node.statement (.function f)).ownVar =
        f.signature.name.toList from List.append_nil _]
      cases f
      rfl
    | block id body => exact (statements_eq u body).trans (plain _)
    | conditional test consequent alternate => cases alternate <;> exact plain _
    | result value => cases value <;> exact plain _
    | verbatim source references => exact congrArg _ (List.append_nil _).symm
    | _ => exact plain _
  | expression e =>
    cases e with
    | identifier name => exact congrArg _ (List.append_nil _).symm
    | verbatim source references => exact congrArg _ (List.append_nil _).symm
    | assignment operator target right => cases target <;> exact plain _
    | update operator leading target => exact absurd rfl (noUpdate operator leading target)
    | call callee arguments optional =>
      exact (expressions_eq { u with reads := callee.readsAfter u.reads } arguments).trans (plain _)
    | sequence items => exact (expressions_eq u items).trans (plain _)
    | _ => exact plain _

/-- What a function reads from outside is what its body reads and the function does not take for its
own. -/
theorem mem_references_function {f : Function}
    (body : ∀ u : Usage, Gains name u (u.all (Node.ofFunction f))
      (∃ y ∈ Node.ofFunction f, y.Reads name) (∃ y ∈ Node.ofFunction f, y.Declares name)) :
    name ∈ f.references ↔ (Node.function f).Reads name := by
  have gains := body ⟨[], f.signature.locals⟩
  have references : f.references = (all ⟨[], f.signature.locals⟩ (Node.ofFunction f)).free := by
    obtain ⟨id, signature, functionBody⟩ := f
    cases functionBody with
    | block statements => exact congrArg free (statements_eq _ statements)
    | expression value => rfl
  rw [references, free, List.mem_filter, gains.reads, Node.reads_iff]
  have own : name ∉ (Node.function f).ownReads := by simp [Node.ownReads, Node.ownReferences]
  have localizes : (!(all ⟨[], f.signature.locals⟩ (Node.ofFunction f)).locals.contains name) =
      true ↔ (Node.function f).Passes name := by
    rw [Bool.not_eq_true', ← Bool.not_eq_true, List.contains_iff_mem, gains.locals]
    rfl
  rw [localizes]
  simp [own, and_comm, Node.children]

/-- **The collectors find what a node reads and what it declares.** -/
theorem gains_node (x : Node) (u : Usage) :
    Gains name u (u.node x) (x.Reads name) (x.Declares name) := by
  induction x using Node.induction generalizing u with
  | step x ih =>
    have children := gains_all ih
    by_cases update : ∃ operator leading target, x = .expression (.update operator leading target)
    · obtain ⟨operator, leading, target, rfl⟩ := update
      refine ⟨mem_addNames.trans (or_congr_right Node.reads_update_iff.symm), ?_⟩
      -- nothing is declared in the target
      rw [iff_false_intro (Node.not_declares_expression _ name), or_false]
      rfl
    · cases function : opensFunction x with
      | true =>
        cases x with
        | function f =>
          refine ⟨mem_addNames.trans (or_congr_right (mem_references_function children)), ?_⟩
          rw [iff_false_intro (Node.not_declares_function f name), or_false]
          rfl
        | _ => simp [opensFunction] at function
      | false =>
        have eq := node_eq function (by simpa using update) u
        have gains := children u
        have passes : x.Passes name := by
          cases x with
          | function f => simp [opensFunction] at function
          | expression e =>
            cases e with
            | update operator leading target => exact absurd ⟨_, _, _, rfl⟩ update
            | _ => trivial
          | _ => trivial
        constructor
        · rw [eq, mem_addNames, gains.reads, Node.reads_iff, or_assoc,
            or_comm (b := name ∈ x.ownReads)]
          simp [passes]
        · rw [eq, List.mem_append, gains.locals, Node.declares_iff function, or_assoc,
            or_comm (b := name ∈ x.ownLexical ++ x.ownVar)]

end Usage

/-! ## What is read of the surroundings -/

variable {name : String}

theorem Node.exists_sees_iff {x : Node} :
    (∃ p, x.Sees p name) ↔ x.Reads name ∧ ¬ x.Declares name := by
  constructor
  · rintro ⟨p, reads, undeclared⟩
    exact ⟨⟨p, reads⟩, undeclared⟩
  · rintro ⟨⟨p, reads⟩, undeclared⟩
    exact ⟨p, reads, undeclared⟩

theorem Expression.mem_references_iff {e : Expression} :
    name ∈ e.references ↔ ∃ p, (Node.expression e).Sees p name := by
  have gains : Usage.Gains name ⟨[], []⟩ ⟨e.readsAfter [], []⟩ _ _ :=
    Usage.gains_node (.expression e) ⟨[], []⟩
  rw [Node.exists_sees_iff, and_iff_left (Node.not_declares_expression e name),
    Expression.references, gains.reads]
  simp

theorem Function.mem_references_iff {f : Function} :
    name ∈ f.references ↔ ∃ p, (Node.function f).Sees p name := by
  rw [Node.exists_sees_iff, and_iff_left (Node.not_declares_function f name)]
  exact Usage.mem_references_function (Usage.gains_all fun y _ => Usage.gains_node y)

theorem Statement.mem_references_iff {s : Statement} :
    name ∈ s.references ↔ ∃ p, (Node.statement s).Sees p name := by
  have gains : Usage.Gains name ⟨[], []⟩ (s.usageAfter ⟨[], []⟩) _ _ :=
    Usage.gains_node (.statement s) ⟨[], []⟩
  rw [Node.exists_sees_iff, Statement.references, Usage.free, List.mem_filter, gains.reads,
    Bool.not_eq_true', ← Bool.not_eq_true, List.contains_iff_mem, gains.locals]
  simp

end ReactiveMarkup.Script
