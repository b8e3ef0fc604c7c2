import ReactiveMarkup.Script.Tree
import ReactiveMarkup.Text.Bytes
import ReactiveMarkup.Text.Layout

/-!
# Printing script trees

Statements stand on lines of their own, indented by two spaces a level. A branch of a condition
that is neither a block nor a condition is put into a block. Callees and objects of an access are
put between parentheses unless they are chains of accesses and calls, names, verbatim text or
parenthesized already.
-/

namespace ReactiveMarkup.Script

open Text (indentation commaSeparated)

/-- Whether an expression needs no parentheses before an access or a call. -/
def Expression.isChain : Expression → Bool
  | .identifier .. | .member .. | .call .. | .parenthesized .. | .verbatim .. => true
  | _ => false

/-- An expression before an access or a call, given its printed form. -/
def callee (expression : Expression) (printed : String) : String :=
  if expression.isChain then printed else "(" ++ printed ++ ")"

/-- Whether a statement stands as a branch of a condition without a block around it. -/
def Statement.isBranch : Statement → Bool
  | .block .. | .conditional .. => true
  | _ => false

/-- A branch of a condition, given how it prints at each depth. -/
def branch (statement : Statement) (printed : Nat → String) (depth : Nat) : String :=
  if statement.isBranch then printed depth
  else
    "\x7b\n" ++ indentation (depth + 1) ++ printed (depth + 1) ++ "\n" ++
      indentation depth ++ "\x7d"

/-- A statement must not start with a function or a brace. -/
def expressionStatement (printed : String) : String :=
  if Text.startsWith printed "function" || Text.startsWith printed "\x7b" then
    "(" ++ printed ++ ");"
  else printed ++ ";"

/-- The body of an arrow must not start with a brace unless it is a block. -/
def conciseBody (printed : String) : String :=
  if Text.startsWith printed "\x7b" then "(" ++ printed ++ ")" else printed

/-- What a function prints before its body. -/
def Signature.print (s : Signature) : String :=
  (if s.isAsync then "async " else "") ++
    if s.isArrow then "(" ++ commaSeparated s.params ++ ") => "
    else
      "function" ++ (if s.isGenerator then "*" else "") ++
        (match s.name with
        | some name => " " ++ name
        | none => "") ++
        "(" ++ commaSeparated s.params ++ ") "

mutual

/-- An expression; the depth is that of the line it starts on. -/
def Expression.printAt (depth : Nat) : Expression → String
  | .identifier name => name
  | .binary left operator right =>
    left.printAt depth ++ " " ++ operator ++ " " ++ right.printAt depth
  | .assignment operator target right =>
    target.printAt depth ++ " " ++ operator ++ " " ++ right.printAt depth
  | .update operator leading target =>
    if leading then operator ++ target.printAt depth else target.printAt depth ++ operator
  | .call function arguments optional =>
    callee function (function.printAt depth) ++ (if optional then "?." else "") ++ "(" ++
      commaSeparated (Expression.printAllAt depth arguments) ++ ")"
  | .member object property optional =>
    callee object (object.printAt depth) ++ (if optional then "?." else ".") ++ property
  | .parenthesized inner => "(" ++ inner.printAt depth ++ ")"
  | .sequence expressions => commaSeparated (Expression.printAllAt depth expressions)
  | .function function => function.printAt depth
  | .verbatim source _ => source
termination_by structural e => e

/-- The printed forms of some expressions. -/
def Expression.printAllAt (depth : Nat) : List Expression → List String
  | [] => []
  | e :: rest => e.printAt depth :: Expression.printAllAt depth rest
termination_by structural es => es

/-- What an assignment or an update writes to. -/
def Target.printAt (depth : Nat) : Target → String
  | .identifier name => name
  | .member object property => callee object (object.printAt depth) ++ "." ++ property
  | .verbatim source _ => source
termination_by structural t => t

/-- A function. One that is not an arrow has a block for its body. -/
def Function.printAt (depth : Nat) : Function → String
  | ⟨_, signature, .block []⟩ => signature.print ++ "\x7b\x7d"
  | ⟨_, signature, .block (first :: rest)⟩ =>
    signature.print ++ "\x7b\n" ++ indentation (depth + 1) ++ first.printAt (depth + 1) ++ "\n" ++
      Statement.printLines (depth + 1) rest ++ indentation depth ++ "\x7d"
  | ⟨_, signature, .expression value⟩ =>
    signature.print ++
      if signature.isArrow then conciseBody (value.printAt depth)
      else
        "\x7b\n" ++ indentation (depth + 1) ++ "return " ++ value.printAt (depth + 1) ++ ";\n" ++
          indentation depth ++ "\x7d"
termination_by structural f => f

/-- A statement from where it starts, without the end of its last line. -/
def Statement.printAt (depth : Nat) : Statement → String
  | .declaration kind declarators =>
    kind.keyword ++ " " ++ commaSeparated (Declarator.printAllAt depth declarators) ++ ";"
  | .function function => function.printAt depth
  | .expression expression => expressionStatement (expression.printAt depth)
  | .block _ [] => "\x7b\x7d"
  | .block _ (first :: rest) =>
    "\x7b\n" ++ indentation (depth + 1) ++ first.printAt (depth + 1) ++ "\n" ++
      Statement.printLines (depth + 1) rest ++ indentation depth ++ "\x7d"
  | .conditional test consequent none =>
    "if (" ++ test.printAt depth ++ ") " ++
      branch consequent (fun d => consequent.printAt d) depth
  | .conditional test consequent (some alternate) =>
    "if (" ++ test.printAt depth ++ ") " ++
      branch consequent (fun d => consequent.printAt d) depth ++ " else " ++
      branch alternate (fun d => alternate.printAt d) depth
  | .result none => "return;"
  | .result (some value) => "return " ++ value.printAt depth ++ ";"
  | .labeled label body => label ++ ": " ++ body.printAt depth
  | .verbatim source _ => source
termination_by structural s => s

/-- Statements, each on lines of its own. -/
def Statement.printLines (depth : Nat) : List Statement → String
  | [] => ""
  | s :: rest =>
    indentation depth ++ s.printAt depth ++ "\n" ++ Statement.printLines depth rest
termination_by structural ss => ss

/-- The printed forms of some bindings. -/
def Declarator.printAllAt (depth : Nat) : List Declarator → List String
  | [] => []
  | ⟨pattern, none⟩ :: rest => pattern.text :: Declarator.printAllAt depth rest
  | ⟨pattern, some init⟩ :: rest =>
    (pattern.text ++ " = " ++ init.printAt depth) :: Declarator.printAllAt depth rest
termination_by structural ds => ds

end

/-- The text of an expression. -/
def Expression.print (e : Expression) : String := e.printAt 0

/-- The text of a list of statements. -/
def printStatements (statements : List Statement) : String := Statement.printLines 0 statements

/-- The text of a statement, with the end of its last line. -/
def Statement.print (s : Statement) : String := printStatements [s]

end ReactiveMarkup.Script
