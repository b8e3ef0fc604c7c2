/-!
# Generated modules as trees

A generated module is one factory function. Its body is built as a tree of statements and
expressions and turned into text only by the printer. Code that comes from the component's own
script enters the tree as text that is already printed (`verbatim`). Numbers in a tree, such
as indices of nodes, are natural numbers that stand for numbers of 32 bits.
-/

namespace ReactiveMarkup.Emission

mutual

/-- A statement of a generated module. -/
inductive Statement
  /-- `let name;` or `let name = init;` -/
  | declare (name : String) (init : Option Expression)
  /-- `const name = init;` -/
  | constant (name : String) (init : Expression)
  | expression (expression : Expression)
  /-- `if (test) body`, without an alternative. -/
  | guarded (test : Expression) (body : List Statement)
  /-- `return value;` -/
  | result (value : Expression)
  | function (name : String) (params : List String) (body : List Statement)
  /-- `while (test) body` -/
  | loop (test : Expression) (body : List Statement)
  /-- `for (const binding of iterable) body` -/
  | each (binding : String) (iterable : Expression) (body : List Statement)
  /-- `try body finally finalizer` -/
  | ensured (body finalizer : List Statement)
  /-- Script text of any number of lines. -/
  | verbatim (code : String)

/-- An expression of a generated module. -/
inductive Expression
  | identifier (name : String)
  | text (value : String)
  | number (value : Nat)
  | boolean (value : Bool)
  | array (items : List Expression)
  | member (object : Expression) (property : String)
  | index (object key : Expression)
  | call (callee : Expression) (arguments : List Expression)
  | assign (target value : Expression)
  | unary (operator : String) (operand : Expression)
  | binary (left : Expression) (operator : String) (right : Expression)
  | conditional (test consequent alternate : Expression)
  | arrow (params : List String) (body : Expression)
  | object (methods : List Method)
  | template (parts : List TemplatePart)
  /-- Script text of one expression. -/
  | verbatim (code : String)

/-- A method of an object literal. -/
structure Method where
  name : String
  params : List Parameter
  body : List Statement

/-- A parameter with the value that it takes when none is given. -/
structure Parameter where
  name : String
  fallback : Option Expression

/-- A piece of a template literal. -/
inductive TemplatePart
  | literal (text : String)
  | slot (expression : Expression)

end

/-- A module that exports one factory function by default. -/
structure Module where
  body : List Statement

namespace Expression

/-- `object.method(arguments)` -/
def callMethod (object : Expression) (method : String) (arguments : List Expression) :
    Expression :=
  .call (.member object method) arguments

/-- The array of some texts. -/
def texts (values : List String) : Expression := .array (values.map .text)

/-- Whether the printer puts an expression between parentheses where it stands as an operand,
a callee or the object of an access. -/
def isLoose : Expression → Bool
  | .assign .. | .binary .. | .conditional .. | .arrow .. | .verbatim .. => true
  | _ => false

end Expression

/-- Whether a piece of a template literal is computed. -/
def TemplatePart.isSlot : TemplatePart → Bool
  | .slot _ => true
  | .literal _ => false

end ReactiveMarkup.Emission
