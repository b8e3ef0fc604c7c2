import ReactiveMarkup.Emission.Vocabulary
import ReactiveMarkup.Generated
import ReactiveMarkup.Reactivity.Analysis

/-!
# Recomputation of reactive declarations

The statements by which generated modules declare and run reactive declarations. A client module
runs those that a batch of changed names concerns, and adds what they assign to the batch; a server
module runs each of them once.
-/

namespace ReactiveMarkup

open Emission

/-- The test whether one of some names is among the changed ones. -/
def changedTest (names : List String) (changed : String) : Emission.Expression :=
  match names with
  | [single] => .callMethod (.identifier changed) "includes" [.text single]
  | names =>
    .callMethod (.texts names) "some"
      [.arrow [Vocabulary.name]
        (.callMethod (.identifier changed) "includes" [.identifier Vocabulary.name])]

/-- Declares the names that reactive declarations assign and that the script does not declare. -/
def undeclaredBindings (a : Analysis) : List Emission.Statement :=
  a.undeclaredAssignees.map fun name => .declare name none

/-- The body of a reactive declaration. -/
def ReactiveDeclaration.code (d : ReactiveDeclaration) : Emission.Statement :=
  .verbatim d.body.print

/-- The test whether a reactive declaration must run. One without dependencies runs only the first
time. -/
def ReactiveDeclaration.test (d : ReactiveDeclaration) (changed : String) : Emission.Expression :=
  if d.dependencies.isEmpty then .identifier Vocabulary.initial
  else .binary (.identifier Vocabulary.initial) "||" (changedTest d.dependencies changed)

/-- Runs a reactive declaration if the changed names concern it, and adds what it assigns to
them. -/
def ReactiveDeclaration.guarded (changed : String) (d : ReactiveDeclaration) :
    Emission.Statement :=
  .guarded (d.test changed)
    (d.code :: d.assignees.map fun name =>
      .expression (.callMethod (.identifier changed) "push" [.text name]))

/-- Runs the reactive declarations that the changed names concern, in order. -/
def guardedRecomputation (a : Analysis) (changed : String) : List Emission.Statement :=
  a.declarations.map (·.guarded changed)

/-- Runs all reactive declarations, in order. -/
def plainRecomputation (a : Analysis) : List Emission.Statement :=
  a.declarations.map ReactiveDeclaration.code

end ReactiveMarkup
