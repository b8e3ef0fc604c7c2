import ReactiveMarkup.Script.Phrase

/-!
# Types

A class may say which interfaces it implements, and may give type arguments to them and to the class
that it extends. Types have no effect; what is read of them is whether they are well formed and
which names they mention.
-/

namespace ReactiveMarkup.Script

open Reader

/-- The types that are words of their own and refer to nothing. -/
def typeWords : List String :=
  ["any", "unknown", "never", "void", "null", "undefined", "string", "number", "boolean", "bigint",
   "symbol", "object", "intrinsic", "true", "false", "this"]

/-- The words that make a type out of the type behind them. -/
def typeOperators : List String := ["keyof", "unique", "readonly"]

/-- A further part of a dotted name. -/
def namePart : Reader (Option String) := do
  if ← accept "." then return some (← takeWord) else return none

/-- A dotted name, which refers to its first part. -/
def readTypeName (g : Grammar) : Reader (List Mention) := do
  let root ← takeWord
  let _ ← collect namePart g.limit
  return [.use root]

/-- Whether a closing angle bracket is at hand, which is then read as a token of its own. -/
def atClosingAngle : Reader Bool := do
  retake Token.asClosingAngle fun _ spelled => spelled.asClosingAngle
  at? ">"

/-- The items of a list of type arguments up to its end. -/
def typeArgument (g : Grammar) : Reader (Option (List Mention)) := do
  if ← atClosingAngle then
    advance
    return none
  else
    let item ← g.typeTerm
    unless ← atClosingAngle do expect ","
    return some item

/-- Type arguments, if there are any. Brackets hold at least one. -/
def readTypeArguments (g : Grammar) : Reader (List Mention) := do
  if ← accept "<" then
    let items ← collect (typeArgument g) g.limit
    require (!items.isEmpty)
    return items.flatten
  else return []

/-- The items of a tuple up to its end. -/
def tupleItem (g : Grammar) : Reader (Option (List Mention)) := do
  if ← accept "]" then return none
  else
    let _ ← accept "..."
    let item ← g.typeTerm
    let _ ← accept "?"
    unless ← at? "]" do expect ","
    return some item

/-- A type that starts with a word. -/
def readWordType (g : Grammar) : Reader (List Mention) := do
  let t ← current
  let next ← following
  if typeWords.any t.isWord && !next.isPunctuator "." then
    takeKeyword
    return []
  else
    let _ ← acceptWord "typeof"
    let name ← readTypeName g
    if (← current).onNewLine then return name else return name ++ (← readTypeArguments g)

/-- An innermost type. -/
def readPrimaryType (g : Grammar) : Reader (List Mention) := do
  match (← current).kind with
  | .word _ _ => readWordType g
  | .string _ _ | .number =>
    advance
    return []
  | .punctuator "-" =>
    advance
    require ((← current).kind == .number)
    advance
    return []
  | .punctuator "(" =>
    advance
    let inner ← g.typeTerm
    expect ")"
    return inner
  | .punctuator "[" =>
    advance
    return (← collect (tupleItem g) g.limit).flatten
  | _ => failure

/-- Brackets behind a type: an array of it, or the type of one of its members. -/
def typeSuffix (g : Grammar) : Reader (Option (List Mention)) := do
  if (← current).onNewLine then return none
  else if ← accept "[" then
    if ← accept "]" then return some []
    else
      let key ← g.typeTerm
      expect "]"
      return some key
  else return none

/-- Whether a token behind the word of a type operator shows that it is one. -/
def startsTypeOperand (t : Token) : Bool :=
  !t.onNewLine &&
    match t.kind with
    | .word text _ => text != "extends"
    | .string _ _ | .number => true
    | .punctuator mark => mark == "(" || mark == "["
    | _ => false

/-- The words that stand before a type. -/
def typeOperator : Reader (Option Unit) := do
  let t ← current
  if typeOperators.any t.isWord && startsTypeOperand (← following) then
    takeKeyword
    return some ()
  else return none

/-- A type without marks between types. -/
def readTypeOperand (g : Grammar) : Reader (List Mention) := do
  let _ ← collect typeOperator g.limit
  let inner ← readPrimaryType g
  return inner ++ (← collect (typeSuffix g) g.limit).flatten

/-- A further member of a union or an intersection. -/
def typeAlternative (g : Grammar) : Reader (Option (List Mention)) := do
  if (← accept "|") || (← accept "&") then return some (← readTypeOperand g) else return none

/-- A union or an intersection of types. -/
def readUnion (g : Grammar) : Reader (List Mention) := do
  unless ← accept "|" do
    let _ ← accept "&"
  let first ← readTypeOperand g
  return first ++ (← collect (typeAlternative g) g.limit).flatten

/-- A type, with a choice by another type if it has one. -/
def readTypeTerm (g : Grammar) : Reader (List Mention) := do
  let subject ← readUnion g
  if (← current).onNewLine then return subject
  else if ← acceptWord "extends" then
    let bound ← readUnion g
    expect "?"
    let consequent ← g.typeTerm
    expect ":"
    let alternate ← g.typeTerm
    return subject ++ bound ++ consequent ++ alternate
  else return subject

end ReactiveMarkup.Script
