import ReactiveMarkup.Script.Reader
import ReactiveMarkup.Script.Tree

/-!
# Phrases

What is read of a script is a phrase: its tree, the names that its text mentions, where it stands,
and what else the grammar asks of it, such as whether it can be assigned to. Node ids are not
given out while reading; every id in a phrase is zero.

A script is read by functions that call each other. `Grammar` collects those that the others go
through when they read something nested.
-/

namespace ReactiveMarkup.Script

/-- A name in the text of a phrase. -/
inductive Mention
  /-- The name is read or written. -/
  | use (name : String)
  /-- The name is declared. -/
  | bind (name : String)
deriving DecidableEq, Repr

/-- The names that some mentions declare, each once. -/
def boundNames (mentions : List Mention) : List String :=
  distinctNames (mentions.filterMap fun
    | .bind name => some name
    | .use _ => none)

/-- The names that some mentions use, each once. -/
def usedNames (mentions : List Mention) : List String :=
  distinctNames (mentions.filterMap fun
    | .use name => some name
    | .bind _ => none)

/-- The names that some mentions use and none of them declares. -/
def freeNames (mentions : List Mention) : List String :=
  (usedNames mentions).filter fun name => !(boundNames mentions).contains name

/-- What a phrase is, as far as the grammar around it asks. -/
inductive Form
  /-- A name. -/
  | name (text : String)
  /-- A quoted literal. -/
  | string
  /-- `&&` or `||`. -/
  | logical
  /-- An operator before its operand, which must not be the base of a power. -/
  | unary
  /-- An array or object that could be a destructuring target. -/
  | pattern
  /-- A plain assignment, which could be a destructuring target with a default value. -/
  | defaulted
  /-- An import that is called, of which no object can be constructed. -/
  | importCall
  | other
deriving DecidableEq, Repr

/-- An expression that has been read. -/
structure Phrase where
  tree : Expression
  mentions : List Mention
  start : Cursor
  stop : Nat
  form : Form
  /-- The target that the phrase is when it is assigned to, if it is a simple one. -/
  place : Option Target
  /-- How many initial values wait in it for it to become a target. -/
  covers : Nat

namespace Phrase

/-- The text of a phrase. -/
def text (p : Phrase) : String := p.start.slice p.stop

/-- Whether a phrase starts with a parenthesis. -/
def startsParenthesized (p : Phrase) : Bool := p.start.rest.head? = some '('

/-- Whether a phrase can stand as an item of a destructuring target. -/
def isItem (p : Phrase) : Bool := p.place.isSome || p.form == .pattern || p.form == .defaulted

/-- The destructuring target with the text of a phrase. -/
def verbatimTarget (p : Phrase) : Target := .verbatim p.text (freeNames p.mentions)

end Phrase

/-- A declared pattern that has been read. -/
structure Binding where
  pattern : Pattern
  mentions : List Mention
  /-- The names that the pattern itself binds; its mentions also have those that functions inside
  its default values declare. -/
  names : List String

/-- The parameters of a function that have been read. -/
structure Parameters where
  texts : List String
  mentions : List Mention
  /-- Whether the last one takes the rest of the arguments. -/
  hasRest : Bool

/-- A statement that has been read. -/
structure Clause where
  tree : Statement
  mentions : List Mention
  /-- Whether it is a quoted literal alone. -/
  isDirective : Bool := false
  /-- The names that it exports itself; those that statements inside it export are not among
  them. -/
  exported : List String := []

/-- What the place of a phrase allows. -/
structure Context where
  /-- Whether `in` is an operator. -/
  allowsIn : Bool
  /-- Whether `yield` is an operator. -/
  yields : Bool
  /-- Whether `await` is an operator. -/
  awaits : Bool
  /-- Whether `return` may stand. -/
  returns : Bool
  /-- Whether it belongs to a decorator, where brackets do not continue an access. -/
  decorates : Bool
deriving DecidableEq, Repr

namespace Context

/-- The top level of a module. -/
def topLevel : Context := ⟨true, false, true, false, false⟩

/-- The inside of brackets, where `in` is an operator again. -/
def bracketed (ctx : Context) : Context := { ctx with allowsIn := true, decorates := false }

/-- The inside of a function. -/
def function (isAsync isGenerator : Bool) : Context := ⟨true, isGenerator, isAsync, true, false⟩

end Context

/-- The readers of nested phrases. -/
structure Grammar where
  /-- A bound on the length of lists. -/
  limit : Nat
  /-- An expression without commas. -/
  assignment : Context → Reader Phrase
  /-- Operands joined by operators that bind tighter than the given level. -/
  operation : Context → Nat → Reader Phrase
  /-- An operand with the operators before and after it. -/
  operand : Context → Reader Phrase
  /-- A chain of accesses and calls. -/
  access : Context → Reader Phrase
  /-- An expression that starts with `new`. -/
  construction : Context → Reader Phrase
  /-- A declared pattern. -/
  binding : Context → Reader Binding
  /-- A type, of which only the names that it mentions are kept. -/
  typeTerm : Reader (List Mention)
  /-- A statement, given whether it stands alone under a condition, a loop or a label. -/
  statement : Context → Bool → Reader Clause

namespace Grammar

/-- The grammar that reads nothing. -/
def exhausted : Grammar where
  limit := 0
  assignment _ := failure
  operation _ _ := failure
  operand _ := failure
  access _ := failure
  construction _ := failure
  binding _ := failure
  typeTerm := failure
  statement _ _ := failure

end Grammar

open Reader

/-- A phrase with a tree, from `start` up to the last token. -/
def phraseFrom (start : Cursor) (tree : Expression) (mentions : List Mention) : Reader Phrase := do
  return ⟨tree, mentions, start, ← lastStop, .other, none, 0⟩

/-- A phrase of some form that is kept as its text, from `start` up to the last token. -/
def verbatimAs (form : Form) (start : Cursor) (mentions : List Mention) : Reader Phrase := do
  let stop ← lastStop
  return ⟨.verbatim (start.slice stop) (freeNames mentions), mentions, start, stop, form, none, 0⟩

/-- A phrase that is kept as its text, from `start` up to the last token. -/
def verbatimFrom : Cursor → List Mention → Reader Phrase := verbatimAs .other

/-- A verbatim statement from `start` up to the last token. -/
def verbatimClause (start : Cursor) (mentions : List Mention) : Reader Clause := do
  return { tree := .verbatim (start.slice (← lastStop)) (freeNames mentions), mentions }

/-- Whether a token can be a name in a context. -/
def isNameToken (ctx : Context) (t : Token) : Bool :=
  match t.kind with
  | .word text _ =>
    !isReserved text && !(text == "await" && ctx.awaits) && !(text == "yield" && ctx.yields)
  | _ => false

/-- Takes a name. -/
def takeName (ctx : Context) : Reader String := do
  let t ← current
  match t.kind with
  | .word text _ =>
    require (isNameToken ctx t)
    advance
    return text
  | _ => failure

/-- Takes any word, also a reserved one. -/
def takeWord : Reader String := do
  match (← current).kind with
  | .word text _ =>
    advance
    return text
  | _ => failure

/-- The phrase of a name. -/
def namePhrase (start : Cursor) (name : String) : Reader Phrase := do
  return ⟨.identifier name, [.use name], start, ← lastStop, .name name, some (.identifier name), 0⟩

/-- The items after the first of a sequence. -/
def sequenceItem (g : Grammar) (ctx : Context) : Reader (Option Phrase) := do
  if ← accept "," then return some (← g.assignment ctx) else return none

/-- An expression, with commas. -/
def Grammar.expression (g : Grammar) (ctx : Context) : Reader Phrase := do
  let first ← g.assignment ctx
  if ← at? "," then
    let rest ← collect (sequenceItem g ctx) g.limit
    phraseFrom first.start (.sequence (first.tree :: rest.map Phrase.tree))
      (first.mentions ++ rest.flatMap Phrase.mentions)
  else return first

/-- The target that a phrase before a plain `=`, or before `of` or `in` of a loop, is. -/
def takeTarget (p : Phrase) : Reader Target := do
  match p.place with
  | some target => return target
  | none =>
    require (p.form == .pattern)
    settleCovers p.covers
    return p.verbatimTarget

end ReactiveMarkup.Script
