import ReactiveMarkup.Emission.Literal
import ReactiveMarkup.Emission.TemplateLines
import ReactiveMarkup.Emission.Tree
import ReactiveMarkup.Text.Blank
import ReactiveMarkup.Text.Layout
import ReactiveMarkup.Text.Lines

/-!
# Printing generated modules

Two spaces indent one level. Operands, callees and objects of an access are put between parentheses
when they are loose, so that the text groups as the tree does. Script text is indented line by
line, except for lines that start inside the text of a template literal.
-/

namespace ReactiveMarkup.Emission

open Text (indentation commaSeparated)

/-- An expression in operand position, given its printed form. -/
def operand (expression : Expression) (printed : String) : String :=
  if expression.isLoose then "(" ++ printed ++ ")" else printed

/-- One line of script text. -/
def verbatimLine (depth : Nat) (line : List Char) (inTemplate : Bool) : String :=
  if inTemplate then String.ofList line ++ "\n"
  else if Text.allBlank line then "\n"
  else indentation depth ++ String.ofList line ++ "\n"

/-- Script text, line by line. -/
def printVerbatim (depth : Nat) (code : String) : String :=
  "".intercalate
    (List.zipWith (verbatimLine depth) (Text.lines code.toList) (templateLineStarts code.toList))

mutual

/-- A statement on lines of its own. -/
def Statement.print (depth : Nat) : Statement → String
  | .verbatim code => printVerbatim depth code
  | .declare name none => indentation depth ++ "let " ++ name ++ ";\n"
  | .declare name (some init) =>
    indentation depth ++ "let " ++ name ++ " = " ++ init.print depth ++ ";\n"
  | .constant name init =>
    indentation depth ++ "const " ++ name ++ " = " ++ init.print depth ++ ";\n"
  | .expression expression => indentation depth ++ expression.print depth ++ ";\n"
  | .guarded test body =>
    indentation depth ++ "if (" ++ test.print depth ++ ") \x7b\n" ++
      Statement.printAll (depth + 1) body ++ indentation depth ++ "\x7d\n"
  | .result value => indentation depth ++ "return " ++ value.print depth ++ ";\n"
  | .function name params body =>
    indentation depth ++ "function " ++ name ++ "(" ++ commaSeparated params ++ ") \x7b\n" ++
      Statement.printAll (depth + 1) body ++ indentation depth ++ "\x7d\n"
  | .loop test body =>
    indentation depth ++ "while (" ++ test.print depth ++ ") \x7b\n" ++
      Statement.printAll (depth + 1) body ++ indentation depth ++ "\x7d\n"
  | .each binding iterable body =>
    indentation depth ++ "for (const " ++ binding ++ " of " ++ iterable.print depth ++
      ") \x7b\n" ++ Statement.printAll (depth + 1) body ++ indentation depth ++ "\x7d\n"
  | .ensured body finalizer =>
    indentation depth ++ "try \x7b\n" ++ Statement.printAll (depth + 1) body ++
      indentation depth ++ "\x7d finally \x7b\n" ++ Statement.printAll (depth + 1) finalizer ++
      indentation depth ++ "\x7d\n"
termination_by structural s => s

/-- The statements of a body, one after the other. -/
def Statement.printAll (depth : Nat) : List Statement → String
  | [] => ""
  | s :: rest => s.print depth ++ Statement.printAll depth rest
termination_by structural s => s

/-- An expression; the depth is that of the line it starts on. -/
def Expression.print (depth : Nat) : Expression → String
  | .identifier name => name
  | .text value => quote value
  | .number value => toString value
  | .boolean value => if value then "true" else "false"
  | .array items => "[" ++ commaSeparated (Expression.printAll depth items) ++ "]"
  | .member object property => operand object (object.print depth) ++ "." ++ property
  | .index object key => operand object (object.print depth) ++ "[" ++ key.print depth ++ "]"
  | .call callee arguments =>
    operand callee (callee.print depth) ++ "(" ++
      commaSeparated (Expression.printAll depth arguments) ++ ")"
  | .assign target value => target.print depth ++ " = " ++ value.print depth
  | .unary operator argument => operator ++ operand argument (argument.print depth)
  | .binary left operator right =>
    operand left (left.print depth) ++ " " ++ operator ++ " " ++
      operand right (right.print depth)
  | .conditional test consequent alternate =>
    operand test (test.print depth) ++ " ? " ++ operand consequent (consequent.print depth) ++
      " : " ++ operand alternate (alternate.print depth)
  | .arrow params body =>
    "(" ++ commaSeparated params ++ ") => " ++ operand body (body.print depth)
  | .object [] => "\x7b\x7d"
  | .object (first :: rest) =>
    "\x7b\n" ++ first.print (depth + 1) ++ Method.printAll (depth + 1) rest ++
      indentation depth ++ "\x7d"
  | .template parts => "`" ++ TemplatePart.printAll depth parts ++ "`"
  | .verbatim code => code
termination_by structural e => e

/-- The printed forms of some expressions. -/
def Expression.printAll (depth : Nat) : List Expression → List String
  | [] => []
  | e :: rest => e.print depth :: Expression.printAll depth rest
termination_by structural es => es

/-- A method with its comma, on lines of its own. -/
def Method.print (depth : Nat) : Method → String
  | ⟨name, params, body⟩ =>
    indentation depth ++ name ++ "(" ++ commaSeparated (Parameter.printAll depth params) ++
      ") \x7b\n" ++ Statement.printAll (depth + 1) body ++ indentation depth ++ "\x7d,\n"
termination_by structural m => m

/-- Methods, one after the other. -/
def Method.printAll (depth : Nat) : List Method → String
  | [] => ""
  | m :: rest => m.print depth ++ Method.printAll depth rest
termination_by structural ms => ms

/-- The printed forms of some parameters. -/
def Parameter.printAll (depth : Nat) : List Parameter → List String
  | [] => []
  | ⟨name, none⟩ :: rest => name :: Parameter.printAll depth rest
  | ⟨name, some fallback⟩ :: rest =>
    (name ++ " = " ++ fallback.print depth) :: Parameter.printAll depth rest
termination_by structural ps => ps

/-- The pieces of a template literal, without its backticks. -/
def TemplatePart.printAll (depth : Nat) : List TemplatePart → String
  | [] => ""
  | .literal text :: rest => escapeTemplate text ++ TemplatePart.printAll depth rest
  | .slot expression :: rest =>
    "$\x7b" ++ expression.print depth ++ "\x7d" ++ TemplatePart.printAll depth rest
termination_by structural ps => ps

end

/-- The text of a module. -/
def Module.print (m : Module) : String :=
  "export default function() \x7b\n" ++ Statement.printAll 1 m.body ++ "\x7d\n"

end ReactiveMarkup.Emission
