import ReactiveMarkup.Script.Grammar.Statement
import ReactiveMarkup.Script.Numbering

/-!
# Parsing scripts

A program is read to its end. An expression is read as far as it goes: what follows a complete
expression is not looked at, except that a token must start there or the text end.

Reading either succeeds with a tree whose nodes are numbered from a given counter on, together with
the next number, or fails; a failure uses up no numbers.
-/

namespace ReactiveMarkup.Script

open Reader

/-- The readers for phrases that are nested up to a depth. -/
def grammar : Nat → Grammar
  | 0 => .exhausted
  | depth + 1 =>
    let inner := grammar depth
    { limit := depth
      assignment := readAssignment inner
      operation := readOperation inner
      operand := readOperand inner
      access := readAccess inner
      construction := readConstruction inner
      binding := readBinding inner
      typeTerm := readTypeTerm inner
      statement := readStatement inner }

/-- A depth that the nesting of a text cannot reach: each level takes a character or is one of a few
between two that do. -/
def depthFor (text : List Char) : Nat := 4 * text.length + 16

/-- A statement at the top level, with its text. -/
structure TopLevelClause where
  clause : Clause
  text : String

/-- The statements of a program up to its end. -/
def programItem (g : Grammar) : Reader (Option TopLevelClause) := do
  let t ← current
  if t.kind == .ended then return none
  else
    let clause ← g.statement .topLevel false
    return some ⟨clause, t.start.slice (← lastStop)⟩

/-- Whether no name is exported twice. Only statements at the top level are counted. -/
def exportsDistinct (items : List TopLevelClause) : Bool :=
  let exported := items.flatMap fun item => item.clause.exported
  (distinctNames exported).length == exported.length

/-- A program up to its end. -/
def readItems (g : Grammar) : Reader (List TopLevelClause) := do
  let items ← collect (programItem g) g.limit
  require (exportsDistinct items)
  return items

/-- The statements of a program. The directives at its start are kept as their text. -/
def programStatements (items : List TopLevelClause) : List Statement :=
  let isDirective := fun item : TopLevelClause => item.clause.isDirective
  (items.takeWhile isDirective).map (fun item => .verbatim item.text []) ++
    (items.dropWhile isDirective).map fun item => item.clause.tree

/-- Whether what has been read is well formed. -/
def ReaderState.isSound (s : ReaderState) : Bool :=
  !s.flawed && s.covers == 0 && s.token.kind != .invalid

/-- Runs a reader over a text, and checks that what it has read is well formed. -/
def runReader {α : Type} (reader : Reader α) (text : List Char) : Option α :=
  match reader (.start text) with
  | some (value, s) => if s.isSound then some value else none
  | none => none

/-- A text without its first line, if that is meant for an operating system. -/
def skipInterpreterLine : List Char → List Char
  | '#' :: '!' :: rest => rest.dropWhile fun c => !isLineEnd c
  | text => text

/-- The statements of a program, not numbered. -/
def readProgram? (text : List Char) : Option (List Statement) :=
  let g := grammar (depthFor text)
  (runReader (readItems g) (skipInterpreterLine text)).map programStatements

/-- The expression that a text starts with, not numbered. -/
def readExpression? (text : List Char) : Option Expression :=
  let g := grammar (depthFor text)
  (runReader (g.expression .topLevel) text).map Phrase.tree

/-- Parses a program; its nodes are numbered from `next` on. -/
def parseProgram? (text : List Char) (next : Nat) : Option (List Statement × Nat) :=
  (readProgram? text).map (Statement.numberAll next)

/-- Parses the expression that a text starts with; its nodes are numbered from `next` on. -/
def parseExpression? (text : List Char) (next : Nat) : Option (Expression × Nat) :=
  (readExpression? text).map (Expression.number next)

end ReactiveMarkup.Script
