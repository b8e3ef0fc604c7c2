import ReactiveMarkup.Scope.Tree
import ReactiveMarkup.Script.Tree

/-!
# Scope resolution

One pass over a script opens a scope for every function and block, records the declarations, and
notes from which scope each name is referred to. When all declarations are known, the names that no
scope around them declares are the free names. Template expressions are resolved as if they stood
at the top level after the script.
-/

namespace ReactiveMarkup

open Script (DeclarationKind Expression Target Function Body Statement Declarator)

/-- The kind of binding that a declaration makes. -/
def BindingKind.ofDeclaration : DeclarationKind → BindingKind
  | .var => .var
  | .lexical => .lexical
  | .constant => .constant

/-- The state of the pass. -/
structure Resolution where
  tree : ScopeTree
  /-- The references so far: the scope that a name is referred to from, and the name. -/
  references : List (ScopeId × String)

namespace Resolution

/-- The state before the pass. -/
def start : Resolution := ⟨.start, []⟩

/-- Notes references from one scope. -/
def refer (r : Resolution) (scope : ScopeId) (names : List String) : Resolution :=
  { r with references := r.references ++ names.map (scope, ·) }

/-- Declares names. -/
def declare (r : Resolution) (scope : ScopeId) (names : List String) (kind : BindingKind) :
    Resolution :=
  { r with tree := r.tree.declareAll scope names kind }

/-- Opens the scope of a node. -/
def enter (r : Resolution) (parent : ScopeId) (isFunction : Bool) (node : Nat) : Resolution :=
  { r with tree := r.tree.openScope parent isFunction node }

/-- The number of the next scope to be opened. -/
def nextScope (r : Resolution) : ScopeId := r.tree.scopes.length

mutual

/-- Resolves an expression that stands in a scope. -/
def expression (scope : ScopeId) : Expression → Resolution → Resolution
  | .identifier name, r => r.refer scope [name]
  | .binary left _ right, r => expression scope right (expression scope left r)
  | .assignment _ target right, r => expression scope right (assigned scope target r)
  | .update _ _ target, r => assigned scope target r
  | .call callee arguments _, r => expressions scope arguments (expression scope callee r)
  | .member object _ _, r => expression scope object r
  | .parenthesized inner, r => expression scope inner r
  | .sequence items, r => expressions scope items r
  | .function f, r => function scope f r
  | .verbatim _ names, r => r.refer scope names
termination_by structural e => e

/-- Resolves some expressions. -/
def expressions (scope : ScopeId) : List Expression → Resolution → Resolution
  | [], r => r
  | e :: rest, r => expressions scope rest (expression scope e r)
termination_by structural es => es

/-- Resolves what is written to. -/
def assigned (scope : ScopeId) : Target → Resolution → Resolution
  | .identifier name, r => r.refer scope [name]
  | .member object _, r => expression scope object r
  | .verbatim _ names, r => r.refer scope names
termination_by structural t => t

/-- Resolves a function in a scope of its own. -/
def function (parent : ScopeId) : Function → Resolution → Resolution
  | ⟨id, signature, .block body⟩, r =>
    statements r.nextScope body
      ((r.enter parent true id).declare r.nextScope signature.paramNames .param)
  | ⟨id, signature, .expression value⟩, r =>
    expression r.nextScope value
      ((r.enter parent true id).declare r.nextScope signature.paramNames .param)
termination_by structural f => f

/-- Resolves a statement that stands in a scope. -/
def statement (scope : ScopeId) : Statement → Resolution → Resolution
  | .declaration kind items, r => declarators scope (.ofDeclaration kind) items r
  | .function ⟨id, signature, body⟩, r =>
    function scope ⟨id, signature, body⟩ (r.declare scope signature.name.toList .function)
  | .expression e, r => expression scope e r
  | .block id body, r => statements r.nextScope body (r.enter scope false id)
  | .conditional test consequent none, r =>
    statement scope consequent (expression scope test r)
  | .conditional test consequent (some alternate), r =>
    statement scope alternate (statement scope consequent (expression scope test r))
  | .result none, r => r
  | .result (some value), r => expression scope value r
  | .labeled _ body, r => statement scope body r
  | .verbatim _ names, r => r.refer scope names
termination_by structural s => s

/-- Resolves some statements. -/
def statements (scope : ScopeId) : List Statement → Resolution → Resolution
  | [], r => r
  | s :: rest, r => statements scope rest (statement scope s r)
termination_by structural ss => ss

/-- Resolves the bindings of a declaration. -/
def declarators (scope : ScopeId) (kind : BindingKind) : List Declarator → Resolution → Resolution
  | [], r => r
  | ⟨pattern, none⟩ :: rest, r =>
    declarators scope kind rest (r.declare scope pattern.names kind)
  | ⟨pattern, some init⟩ :: rest, r =>
    declarators scope kind rest (expression scope init (r.declare scope pattern.names kind))
termination_by structural ds => ds

end

/-- The free names among the references. -/
def freeNames (r : Resolution) : NameSet :=
  .ofList ((r.references.filter fun (scope, name) => (r.tree.owner? scope name).isNone).map
    Prod.snd)

/-- The scope tree at the end of the pass. -/
def finish (r : Resolution) : ScopeTree := { r.tree with free := r.freeNames }

end Resolution

/-- The scope tree of a script with its template expressions. -/
def ScopeTree.resolve (script : List Statement) (templates : List Expression) : ScopeTree :=
  (Resolution.expressions rootScope templates
    (Resolution.statements rootScope script .start)).finish

end ReactiveMarkup
