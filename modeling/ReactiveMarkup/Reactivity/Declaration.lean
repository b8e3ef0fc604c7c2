import ReactiveMarkup.Script.References

/-!
# Reactive declarations

A top-level statement labelled `$` is a reactive declaration: it runs again whenever one of the
names that it depends on changes. This module takes such statements out of a script and collects
what each depends on and what it assigns.
-/

namespace ReactiveMarkup

open Script (Expression Target Statement Declarator)

/-- The label of reactive declarations. -/
def reactiveLabel : String := "$"

/-- A reactive declaration. -/
structure ReactiveDeclaration where
  /-- Its place among the top-level statements of the script. -/
  sourceIndex : Nat
  /-- The statement under the label. -/
  body : Statement
  dependencies : List String
  assignees : List String

instance : Inhabited ReactiveDeclaration := ⟨⟨0, default, [], []⟩⟩

/-- The names that a reactive statement reads and assigns. -/
structure Dependence where
  reads : List String
  assigned : List String

namespace Dependence

/-- Adds names that are read. -/
def read (d : Dependence) (names : List String) : Dependence :=
  { d with reads := addNames d.reads names }

/-- Adds names that are assigned. -/
def assign (d : Dependence) (names : List String) : Dependence :=
  { d with assigned := addNames d.assigned names }

/-- What an assignment reads of its target: the object whose member is written, and, unless the
assignment is plain, the target itself. -/
def readTarget (d : Dependence) (operator : String) : Target → Dependence
  | .member object _ => d.read object.references
  | target => if operator = "=" then d else d.read target.names

mutual

/-- Adds what an expression depends on and assigns. Assignments count inside sequences,
parentheses and the right-hand sides of other assignments. -/
def expression (d : Dependence) : Expression → Dependence
  | .assignment operator target right =>
    ((d.readTarget operator target).expression right).assign target.names
  | .sequence items => d.expressions items
  | .parenthesized inner => d.expression inner
  | e => d.read e.references
termination_by structural e => e

/-- Adds what some expressions depend on and assign. -/
def expressions (d : Dependence) : List Expression → Dependence
  | [] => d
  | e :: rest => (d.expression e).expressions rest
termination_by structural es => es

end

mutual

/-- Adds what a statement depends on and assigns. Functions and verbatim statements count for
nothing. -/
def statement (d : Dependence) : Statement → Dependence
  | .expression e => d.expression e
  | .block _ body => d.statements body
  | .conditional test consequent none => (d.expression test).statement consequent
  | .conditional test consequent (some alternate) =>
    ((d.expression test).statement consequent).statement alternate
  | .declaration _ items => d.declarators items
  | .result none => d
  | .result (some value) => d.expression value
  | .labeled _ body => d.statement body
  | .function _ => d
  | .verbatim _ _ => d
termination_by structural s => s

/-- Adds what some statements depend on and assign. -/
def statements (d : Dependence) : List Statement → Dependence
  | [] => d
  | s :: rest => (d.statement s).statements rest
termination_by structural ss => ss

/-- Adds what the initial values of some bindings depend on and assign. -/
def declarators (d : Dependence) : List Declarator → Dependence
  | [] => d
  | ⟨_, none⟩ :: rest => d.declarators rest
  | ⟨_, some init⟩ :: rest => (d.expression init).declarators rest
termination_by structural ds => ds

end

end Dependence

/-- The reactive declaration that a statement makes. A name that it assigns is not a
dependency. -/
def ReactiveDeclaration.ofBody (sourceIndex : Nat) (body : Statement) : ReactiveDeclaration :=
  let dependence := Dependence.statement ⟨[], []⟩ body
  { sourceIndex := sourceIndex
    body := body
    dependencies := dependence.reads.filter fun name => !dependence.assigned.contains name
    assignees := dependence.assigned }

/-- A script taken apart. -/
structure Extraction where
  declarations : List ReactiveDeclaration
  /-- The other statements, in order. -/
  residue : List Statement

/-- Takes the reactive declarations out of statements that are counted from `index` on. -/
def extractFrom (index : Nat) : List Statement → Extraction
  | [] => ⟨[], []⟩
  | s :: rest =>
    let others := extractFrom (index + 1) rest
    match s with
    | .labeled label body =>
      if label = reactiveLabel then
        { others with declarations := .ofBody index body :: others.declarations }
      else { others with residue := s :: others.residue }
    | s => { others with residue := s :: others.residue }

/-- Takes the reactive declarations out of a script. -/
def extractReactive (script : List Statement) : Extraction := extractFrom 0 script

end ReactiveMarkup
