import ReactiveMarkup.Markup.Fragment
import ReactiveMarkup.Reactivity.Order
import ReactiveMarkup.Scope.Resolution
import ReactiveMarkup.Scope.Traversal

/-!
# Reactivity analysis

The analysis of a component says which names of its root scope change, which ones the rendered
markup reads, and in which order the reactive declarations run.
-/

namespace ReactiveMarkup

open Script (Expression Statement)

/-- What is known about the names of a component. -/
structure Analysis where
  /-- The names that the root scope declares. -/
  rootVariables : NameSet
  /-- The names that are written somewhere after their declaration. -/
  willChange : NameSet
  /-- The names that the rendered markup reads. -/
  usedInTemplate : NameSet
  /-- In the order in which they run. -/
  declarations : List ReactiveDeclaration
  scopes : ScopeTree

namespace Analysis

/-- The names whose change must be notified: those that the markup reads and those that a reactive
declaration depends on. -/
def invalidated (a : Analysis) : NameSet :=
  a.usedInTemplate.insertAll (a.declarations.flatMap ReactiveDeclaration.dependencies)

/-- The names that reactive declarations assign and that the script does not declare. -/
def undeclaredAssignees (a : Analysis) : List String :=
  distinctNames ((a.declarations.flatMap ReactiveDeclaration.assignees).filter fun name =>
    !a.rootVariables.contains name)

end Analysis

/-- Adds the names of the root, or of no scope, that an expression writes. -/
def recordMutation (tree : ScopeTree) (e : Expression) (scope : ScopeId) (names : NameSet) :
    NameSet :=
  names.insertAll (e.mutatedNames.filter (tree.isRootOrFree scope))

/-- The names that a script and template expressions write, added to a set. -/
def mutations (tree : ScopeTree) (script : List Statement) (templates : List Expression)
    (names : NameSet) : NameSet :=
  (walkExpressions tree (recordMutation tree) templates
    (walkStatements tree (recordMutation tree) script ⟨.start, names⟩)).state

/-- The names that the rendered markup reads. -/
def templateReads (marker : String) (html : List Fragment) : NameSet :=
  .ofList ((Fragment.allRendered marker html).flatMap Expression.references)

/-- The result of the analysis: what is known, and the component without its reactive
declarations. -/
structure Analyzed where
  analysis : Analysis
  component : Component

/-- Analyzes a component. Attributes that start with the event marker are listeners and do not count
as rendered. -/
def Component.analyze (component : Component) (marker : String) : Analyzed :=
  let templates := Fragment.allExpressions component.html
  let tree := ScopeTree.resolve component.script templates
  let extraction := extractReactive component.script
  let assigned :=
    NameSet.ofList (extraction.declarations.flatMap ReactiveDeclaration.assignees)
  { analysis :=
      { rootVariables := tree.rootNames
        willChange := mutations tree extraction.residue templates assigned
        usedInTemplate := templateReads marker component.html
        declarations := orderReactive extraction.declarations
        scopes := tree }
    component := { component with script := extraction.residue } }

end ReactiveMarkup
