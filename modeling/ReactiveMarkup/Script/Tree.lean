import ReactiveMarkup.NameList

/-!
# Script trees

The part of a script that reactivity depends on is held as a tree: declarations, functions, blocks,
conditions, assignments, calls, and accesses by name. Everything else is held as its exact text
together with the names that the text refers to (`verbatim`).

Functions and blocks carry a node id, by which their scopes are found.
-/

namespace ReactiveMarkup.Script

/-- The keyword of a variable declaration. -/
inductive DeclarationKind
  | var
  | lexical
  | constant
deriving DecidableEq, Repr

/-- How a kind of declaration is written. -/
def DeclarationKind.keyword : DeclarationKind → String
  | .var => "var"
  | .lexical => "let"
  | .constant => "const"

/-- What a declaration binds. -/
inductive Pattern
  | identifier (name : String)
  /-- A destructuring pattern: its text and the names that it binds. -/
  | destructure (source : String) (names : List String)
deriving DecidableEq, Repr

/-- The names that a pattern binds. -/
def Pattern.names : Pattern → List String
  | .identifier name => [name]
  | .destructure _ names => names

/-- The text of a pattern. -/
def Pattern.text : Pattern → String
  | .identifier name => name
  | .destructure source _ => source

/-- What a function says before its body. -/
structure Signature where
  name : Option String
  isArrow : Bool
  isAsync : Bool
  isGenerator : Bool
  /-- The text of each parameter. -/
  params : List String
  /-- The names that the parameters bind. -/
  paramNames : List String
deriving DecidableEq, Repr

mutual

/-- An expression. -/
inductive Expression
  | identifier (name : String)
  /-- An arithmetic, relational or logical operator with two operands. -/
  | binary (left : Expression) (operator : String) (right : Expression)
  | assignment (operator : String) (target : Target) (right : Expression)
  /-- `++` or `--`, before its target (`leading`) or after it. -/
  | update (operator : String) (leading : Bool) (target : Target)
  | call (callee : Expression) (arguments : List Expression) (optional : Bool)
  /-- An access by name. -/
  | member (object : Expression) (property : String) (optional : Bool)
  | parenthesized (expression : Expression)
  | sequence (expressions : List Expression)
  | function (function : Function)
  /-- The text of any other expression and the names that it refers to. -/
  | verbatim (source : String) (references : List String)

/-- What an assignment or an update writes to. -/
inductive Target
  | identifier (name : String)
  | member (object : Expression) (property : String)
  /-- The text of any other target and the names in it. -/
  | verbatim (source : String) (names : List String)

/-- A function of any form. -/
structure Function where
  id : Nat
  signature : Signature
  body : Body

/-- The body of a function. -/
inductive Body
  | block (statements : List Statement)
  | expression (expression : Expression)

/-- A statement. -/
inductive Statement
  | declaration (kind : DeclarationKind) (declarators : List Declarator)
  | function (function : Function)
  | expression (expression : Expression)
  | block (id : Nat) (body : List Statement)
  | conditional (test : Expression) (consequent : Statement) (alternate : Option Statement)
  /-- `return`, with or without a value. -/
  | result (value : Option Expression)
  | labeled (label : String) (body : Statement)
  /-- The text of any other statement and the names that it refers to. -/
  | verbatim (source : String) (references : List String)

/-- One binding of a declaration. -/
structure Declarator where
  pattern : Pattern
  init : Option Expression

end

instance : Inhabited Expression := ⟨.verbatim "" []⟩

instance : Inhabited Statement := ⟨.verbatim "" []⟩

namespace Expression

/-- Whether an expression is a function, inside any number of parentheses. -/
def isFunction : Expression → Bool
  | .function _ => true
  | .parenthesized inner => inner.isFunction
  | _ => false
termination_by structural e => e

/-- The name at the root of a chain of accesses. -/
def root? : Expression → Option String
  | .identifier name => some name
  | .member object _ _ => object.root?
  | .parenthesized inner => inner.root?
  | .verbatim _ references => references.head?
  | _ => none
termination_by structural e => e

end Expression

/-- The names whose values change when a target is written: writing a member of an object changes
the object. -/
def Target.names : Target → List String
  | .identifier name => [name]
  | .member object _ => object.root?.toList
  | .verbatim _ names => names

/-- The names that an expression writes to, when it is itself an assignment or an update. -/
def Expression.mutatedNames : Expression → List String
  | .assignment _ target _ => target.names
  | .update _ _ target => target.names
  | _ => []

end ReactiveMarkup.Script
