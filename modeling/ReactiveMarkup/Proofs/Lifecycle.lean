import ReactiveMarkup.Client.Module

/-!
# The methods of a client module

A client module returns one object. `methodBody` finds the statements of a method of such an object
in a module; nothing else in a client module declares an object.
-/

namespace ReactiveMarkup.Client

open Emission (Statement Module)

/-- The statements of the methods of a given name, of an object that a statement declares. -/
def methodStatements (name : String) : Statement → List Statement
  | .constant _ (.object methods) =>
    (methods.filter fun method => method.name == name).flatMap Emission.Method.body
  | _ => []

/-- The statements of the method of a given name in a module. -/
def methodBody (name : String) (m : Module) : List Statement :=
  m.body.flatMap (methodStatements name)

variable (name : String)

theorem methodStatements_undeclaredBindings (a : Analysis) :
    (undeclaredBindings a).flatMap (methodStatements name) = [] := by
  simp [undeclaredBindings, List.flatMap_eq_nil_iff, methodStatements]

theorem methodStatements_stateBindings (draft : Draft) :
    (stateBindings draft).flatMap (methodStatements name) = [] := by
  simp [stateBindings, List.flatMap_eq_nil_iff, methodStatements]

theorem methodStatements_embedScript (script : List Script.Statement) :
    (embedScript script).flatMap (methodStatements name) = [] := by
  unfold embedScript
  dsimp only
  split <;> rfl

theorem methodStatements_firstRecomputation (a : Analysis) :
    (firstRecomputation a).flatMap (methodStatements name) = [] := by
  unfold firstRecomputation
  split <;> rfl

/-- The methods of a client module are those of its lifecycle. -/
theorem methodBody_generate (component : Component) (analysis : Analysis) (options : Options) :
    methodBody name (generate component analysis options).code =
      methodStatements name (.constant Vocabulary.lifecycle
        (lifecycle options (documentDraft options analysis component.html))) := by
  simp only [methodBody, generate, List.flatMap_append, methodStatements_undeclaredBindings,
    methodStatements_stateBindings, methodStatements_embedScript,
    methodStatements_firstRecomputation, List.nil_append]
  simp [methodStatements, recomputation, dispatcher, assignTo]

theorem methodBody_create (component : Component) (analysis : Analysis) (options : Options) :
    methodBody "create" (generate component analysis options).code =
      (documentDraft options analysis component.html).create ++
        [assignTo Vocabulary.mounted (.boolean true)] := by
  rw [methodBody_generate]
  simp [methodStatements, lifecycle]

theorem methodBody_update (component : Component) (analysis : Analysis) (options : Options) :
    methodBody "update" (generate component analysis options).code =
      (documentDraft options analysis component.html).update := by
  rw [methodBody_generate]
  simp [methodStatements, lifecycle]

theorem methodBody_destroy (component : Component) (analysis : Analysis) (options : Options) :
    methodBody "destroy" (generate component analysis options).code =
      (documentDraft options analysis component.html).destroy.reverse ++
        [assignTo Vocabulary.mounted (.boolean false)] := by
  rw [methodBody_generate]
  simp [methodStatements, lifecycle]

end ReactiveMarkup.Client
