import ReactiveMarkup.NameSet

/-!
# Scope trees

The scopes of a script are numbered in the order in which they are entered; scope 0 is the root.
Each scope but the root knows the scope around it by number. A node map leads from functions and
blocks to their scopes. Scope numbers and node ids are natural numbers that stand for numbers of 32
bits; a script of less than 4 GiB does not exceed these.
-/

namespace ReactiveMarkup

/-- How a name came to be declared. -/
inductive BindingKind
  | var
  | lexical
  | constant
  | function
  | param
deriving DecidableEq, Repr

/-- The number of a scope. -/
abbrev ScopeId := Nat

/-- The number of the root scope. -/
def rootScope : ScopeId := 0

/-- One scope. -/
structure Scope where
  parent : Option ScopeId
  /-- Function scopes receive the `var` declarations made anywhere inside them. -/
  isFunction : Bool
  /-- The declared names, each once, with its first declaration. -/
  declarations : List (String × BindingKind)
deriving DecidableEq, Repr

namespace Scope

/-- Whether a scope declares a name. -/
def declares (scope : Scope) (name : String) : Bool :=
  scope.declarations.any fun entry => entry.1 == name

/-- Records a declaration; the first one of a name stands. -/
def declare (scope : Scope) (name : String) (kind : BindingKind) : Scope :=
  if scope.declares name then scope
  else { scope with declarations := scope.declarations ++ [(name, kind)] }

end Scope

/-- All scopes of a script. -/
structure ScopeTree where
  scopes : List Scope
  /-- Scopes by node id, the latest entry first. -/
  nodes : List (Nat × ScopeId)
  /-- Names that are referred to somewhere and that no scope around declares. -/
  free : NameSet

namespace ScopeTree

/-- The tree that holds nothing but the root. -/
def start : ScopeTree where
  scopes := [⟨none, true, []⟩]
  nodes := []
  free := ∅

instance : Inhabited ScopeTree := ⟨start⟩

/-- The scope of a node. -/
def scopeOf? (tree : ScopeTree) (node : Nat) : Option ScopeId :=
  (tree.nodes.find? fun entry => entry.1 == node).map Prod.snd

/-- The names that the root declares. -/
def rootNames (tree : ScopeTree) : NameSet :=
  match tree.scopes with
  | root :: _ => .ofList (root.declarations.map Prod.fst)
  | [] => ∅

/-- The nearest scope that declares a name, at most `fuel` scopes outward. -/
def ownerWithin (tree : ScopeTree) (name : String) : Nat → ScopeId → Option ScopeId
  | 0, _ => none
  | fuel + 1, id =>
    match tree.scopes[id]? with
    | none => none
    | some scope =>
      if scope.declares name then some id
      else
        match scope.parent with
        | none => none
        | some parent => tree.ownerWithin name fuel parent

/-- The nearest scope, from `id` outward, that declares a name. A name without one is free. -/
def owner? (tree : ScopeTree) (id : ScopeId) (name : String) : Option ScopeId :=
  tree.ownerWithin name tree.scopes.length id

/-- Whether a name, seen from a scope, belongs to the root or is free. -/
def isRootOrFree (tree : ScopeTree) (id : ScopeId) (name : String) : Bool :=
  match tree.owner? id name with
  | some owner => owner == rootScope
  | none => true

/-- The nearest function scope, at most `fuel` scopes outward. -/
def functionScopeWithin (tree : ScopeTree) : Nat → ScopeId → ScopeId
  | 0, id => id
  | fuel + 1, id =>
    match tree.scopes[id]? with
    | none => id
    | some scope =>
      if scope.isFunction then id
      else
        match scope.parent with
        | none => id
        | some parent => tree.functionScopeWithin fuel parent

/-- The nearest function scope from `id` outward. -/
def functionScope (tree : ScopeTree) (id : ScopeId) : ScopeId :=
  tree.functionScopeWithin tree.scopes.length id

/-- The scope that receives a declaration made in scope `id`. -/
def receiver (tree : ScopeTree) (id : ScopeId) : BindingKind → ScopeId
  | .var => tree.functionScope id
  | _ => id

/-- Declares a name in the scope that receives it. -/
def declare (tree : ScopeTree) (id : ScopeId) (name : String) (kind : BindingKind) : ScopeTree :=
  { tree with scopes := tree.scopes.modify (tree.receiver id kind) (·.declare name kind) }

/-- Declares several names of one kind. -/
def declareAll (tree : ScopeTree) (id : ScopeId) (names : List String) (kind : BindingKind) :
    ScopeTree :=
  names.foldl (fun t name => t.declare id name kind) tree

/-- Opens the scope of a node inside scope `parent`. Its number is the number of scopes before. -/
def openScope (tree : ScopeTree) (parent : ScopeId) (isFunction : Bool) (node : Nat) :
    ScopeTree where
  scopes := tree.scopes ++ [⟨some parent, isFunction, []⟩]
  nodes := (node, tree.scopes.length) :: tree.nodes
  free := tree.free

end ScopeTree

end ReactiveMarkup
