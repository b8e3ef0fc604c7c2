import ReactiveMarkup.Script.Grammar.Access

/-!
# Operators

Operators before and after an operand, operators between operands, conditions, assignments and
arrows, from the tightest to the loosest.
-/

namespace ReactiveMarkup.Script

open Reader

/-- The operators that stand before an operand. -/
def unaryMarks : List String := ["+", "-", "~", "!"]

/-- The words that stand before an operand. -/
def unaryWords : List String := ["delete", "void", "typeof"]

/-- Whether a token is an operator that stands before an operand. -/
def isUnary (t : Token) : Bool :=
  match t.kind with
  | .punctuator mark => unaryMarks.contains mark
  | .word text _ => unaryWords.contains text
  | _ => false

/-- The words behind `await` or `yield` that make a name of it. -/
def joiningWords : List String := ["in", "instanceof", "of"]

/-- Whether a token behind `await` or `yield`, on the same line, shows that an operand was meant. -/
def showsOperand (t : Token) : Bool :=
  !t.onNewLine &&
    match t.kind with
    | .word text _ => !joiningWords.contains text
    | .number | .string _ _ => true
    | _ => false

/-- Whether `await` was meant as an operator, given the token behind it. A slash then starts a
regular expression. -/
def showsAwaited (t : Token) : Bool := showsOperand t || (t.isPunctuator "/" && !t.onNewLine)

/-- The increment or decrement that a token is. -/
def updateMark? (t : Token) : Option String :=
  if t.isPunctuator "++" then some "++" else if t.isPunctuator "--" then some "--" else none

/-- The phrase of an operator before its operand. It cannot be the base of a power. -/
def leadingPhrase (start : Cursor) (argument : Phrase) : Reader Phrase := do
  let phrase ← verbatimAs .unary start argument.mentions
  require (!(← at? "**"))
  return phrase

/-- An increment or decrement, given its target. -/
def updatePhrase (start : Cursor) (mark : String) (leading : Bool) (argument : Phrase) :
    Reader Phrase := do
  match argument.place with
  | none => failure
  | some target => phraseFrom start (.update mark leading target) argument.mentions

/-- An operand with the operators after it. -/
def readTrailing (g : Grammar) (ctx : Context) : Reader Phrase := do
  let argument ← readAccess g ctx
  let t ← current
  match updateMark? t with
  | some mark =>
    if t.onNewLine then return argument
    else
      advance
      updatePhrase argument.start mark false argument
  | none => return argument

/-- An operand with the operators before and after it. -/
def readOperand (g : Grammar) (ctx : Context) : Reader Phrase := do
  let t ← current
  let next ← following
  match updateMark? t with
  | some mark =>
    advance
    updatePhrase t.start mark true (← g.operand ctx)
  | none =>
    if isUnary t then
      takeKeyword
      leadingPhrase t.start (← g.operand ctx)
    else if t.isWord "await" && (ctx.awaits || showsAwaited next) then
      require ctx.awaits
      takeKeyword
      leadingPhrase t.start (← g.operand ctx)
    else readTrailing g ctx

/-- How tight an operator between operands binds. -/
def markLevel : String → Nat
  | "??" => 1
  | "||" => 2
  | "&&" => 3
  | "|" => 4
  | "^" => 5
  | "&" => 6
  | "==" | "!=" | "===" | "!==" => 7
  | "<" | ">" | "<=" | ">=" => 8
  | "<<" | ">>" | ">>>" => 9
  | "+" | "-" => 10
  | "*" | "/" | "%" => 11
  | "**" => 12
  | _ => 0

/-- The operator between operands that a token is, with how tight it binds. -/
def operator? (ctx : Context) (t : Token) : Option (String × Nat) :=
  match t.kind with
  | .punctuator mark => if markLevel mark = 0 then none else some (mark, markLevel mark)
  | .word "instanceof" _ => some ("instanceof", 8)
  | .word "in" _ => if ctx.allowsIn then some ("in", 8) else none
  | _ => none

/-- Whether an operator is read where only tighter ones than `level` are wanted. Powers group to
the right, all others to the left. -/
def bindsWithin (operator : String × Nat) (level : Nat) : Bool :=
  level < operator.2 || (operator.1 == "**" && operator.2 == level)

/-- Whether an operand mixes `&&` or `||` with the `??` beside it. One that starts with a
parenthesis is taken not to. -/
def mixesCoalescing (p : Phrase) : Bool := p.form == .logical && !p.startsParenthesized

/-- Whether the operands of an operator go together with it: `??` does not mix with `&&` and `||`,
and an operator before its operand is not the base of a power. -/
def operandsFit (operator : String) (left right : Phrase) : Bool :=
  if operator == "??" then !mixesCoalescing left && !mixesCoalescing right
  else operator != "**" || left.form != .unary

/-- The form of an operation. -/
def operationForm (operator : String) : Form :=
  if operator == "&&" || operator == "||" then .logical else .other

/-- Two operands joined by an operator. -/
def operationPhrase (operator : String) (left right : Phrase) : Reader Phrase := do
  require (operandsFit operator left right)
  let phrase ← phraseFrom left.start (.binary left.tree operator right.tree)
    (left.mentions ++ right.mentions)
  return { phrase with form := operationForm operator }

/-- Whether a token is a word that could only make a statement about a type, which scripts do not
have. -/
def isTypeWord (t : Token) : Bool := !t.onNewLine && (t.isWord "as" || t.isWord "satisfies")

/-- The operators that follow an operand and bind tighter than `level`, at most `fuel` of them. -/
def readOperations (g : Grammar) (ctx : Context) (level : Nat) : Nat → Phrase → Reader Phrase
  | 0, _ => failure
  | fuel + 1, left => do
    let t ← current
    match operator? ctx t with
    | none =>
      require (!(isTypeWord t && level < markLevel "<"))
      return left
    | some operator =>
      if bindsWithin operator level then
        takeKeyword
        let right ← g.operation ctx operator.2
        readOperations g ctx level fuel (← operationPhrase operator.1 left right)
      else return left

/-- The test whether an object has a private name. Its right side is not such a test. -/
def readPrivateTest (g : Grammar) (ctx : Context) : Reader Phrase := do
  let start := (← current).start
  advance
  expectWord "in"
  require (!(← current).isPrivateName)
  let right ← g.operation ctx (markLevel "<")
  verbatimFrom start right.mentions

/-- Operands joined by operators that bind tighter than `level`. -/
def readOperation (g : Grammar) (ctx : Context) (level : Nat) : Reader Phrase := do
  match (← current).kind with
  | .privateName _ =>
    require ctx.allowsIn
    readOperations g ctx level g.limit (← readPrivateTest g ctx)
  | _ => readOperations g ctx level g.limit (← readOperand g ctx)

/-- The operators of assignments. -/
def assignmentMarks : List String :=
  ["=", "+=", "-=", "*=", "/=", "%=", "**=", "<<=", ">>=", ">>>=", "&=", "|=", "^=", "&&=", "||=",
   "??="]

/-- The operator of an assignment that a token is. -/
def assignmentMark? (t : Token) : Option String :=
  match t.kind with
  | .punctuator mark => if assignmentMarks.contains mark then some mark else none
  | _ => none

/-- What an assignment writes to. Only a plain one can take a value apart. -/
def assignedTarget (mark : String) (left : Phrase) : Reader Target := do
  if mark == "=" then takeTarget left
  else
    match left.place with
    | some target => return target
    | none => failure

/-- An assignment, given its left side. -/
def readAssigned (g : Grammar) (ctx : Context) (left : Phrase) (mark : String) :
    Reader Phrase := do
  let target ← assignedTarget mark left
  advance
  let right ← g.assignment ctx
  let phrase ← phraseFrom left.start (.assignment mark target right.tree)
    (left.mentions ++ right.mentions)
  return { phrase with form := if mark == "=" then .defaulted else .other }

/-- A condition, given its test. -/
def readConditional (g : Grammar) (ctx : Context) (test : Phrase) : Reader Phrase := do
  expect "?"
  let consequent ← g.assignment ctx.bracketed
  expect ":"
  let alternate ← g.assignment ctx
  verbatimFrom test.start (test.mentions ++ consequent.mentions ++ alternate.mentions)

/-- An expression that starts with `yield`. -/
def readYield (g : Grammar) (ctx : Context) : Reader Phrase := do
  let start := (← current).start
  require ctx.yields
  takeKeyword
  let t ← current
  if t.isPunctuator "*" && !t.onNewLine then
    advance
    let argument ← g.assignment ctx
    verbatimFrom start argument.mentions
  else
    let isBare := t.onNewLine || t.kind == .ended || t.isWord "in" ||
      [")", "]", "\x7d", ",", ";", ":"].any t.isPunctuator
    if isBare then verbatimFrom start []
    else
      let argument ← g.assignment ctx
      verbatimFrom start argument.mentions

/-- What the tokens behind an opening parenthesis say about whether it starts the parameters of an
arrow. -/
inductive ArrowSign
  | certain
  | possible
  | absent
deriving DecidableEq, Repr

/-- What the token behind the dots of a first parameter says about an arrow: a name that is no
keyword anywhere can only be a parameter, and a literal none. -/
def restSign (t : Token) : ArrowSign :=
  match t.kind with
  | .word text _ =>
    if ["null", "true", "false"].contains text then .absent
    else if t.isBindingWord && !contextualWords.contains text then .certain
    else .possible
  | .string _ _ | .number => .absent
  | _ => .possible

/-- Looks behind an opening parenthesis for signs of an arrow. -/
def arrowSign (parenthesis : Token) : ArrowSign :=
  let first := scanToken parenthesis.stop
  let second := scanToken first.stop
  if first.isPunctuator ")" then
    if ["=>", "\x7b"].any second.isPunctuator then .certain else .absent
  else if first.isPunctuator "[" || first.isPunctuator "\x7b" then .possible
  else if first.isPunctuator "..." then restSign second
  else if first.isBindingWord && [",", "=", ")"].any second.isPunctuator then .possible
  else .absent

/-- The parameters of a possible arrow and its mark. Where nothing follows that could start a body,
it is no arrow. -/
def readArrowTrial (g : Grammar) (ctx : Context) (isAsync : Bool) : Reader Parameters := do
  let params ← readArrowHead g ctx isAsync
  let t ← current
  require (t.kind != .ended && t.kind != .invalid)
  return params

/-- An arrow with its parameters between parentheses, if one starts here. -/
def readArrow? (g : Grammar) (ctx : Context) (isAsync : Bool) (parenthesis : Token) :
    Reader (Option Phrase) := do
  let start := (← current).start
  match arrowSign parenthesis with
  | .absent => return none
  | .certain =>
    let params ← readArrowHead g ctx isAsync
    return some (← functionPhrase start (← readArrowBody g ctx isAsync params))
  | .possible =>
    match ← attempt (readArrowTrial g ctx isAsync) with
    | none => return none
    | some params =>
      return some (← functionPhrase start (← readArrowBody g ctx isAsync params))

/-- An asynchronous arrow with one bare parameter. -/
def readAsyncBareArrow (g : Grammar) (ctx : Context) : Reader Phrase := do
  let start := (← current).start
  takeKeyword
  let parameter := (← current).start
  let name ← takeName { ctx with awaits := true }
  readBareArrow g ctx start true name (parameter.slice (← lastStop))

/-- An arrow, if one starts here that is not a bare name. -/
def readLeadingArrow? (g : Grammar) (ctx : Context) : Reader (Option Phrase) := do
  let t ← current
  let next ← following
  if t.isPunctuator "(" then readArrow? g ctx false t
  else if t.isWord "async" && !next.onNewLine then
    if next.isPunctuator "(" then readArrow? g ctx true next
    else if next.isBindingWord && (scanToken next.stop).isPunctuator "=>" then
      return some (← readAsyncBareArrow g ctx)
    else return none
  else return none

/-- What may follow the operands of an expression without commas. -/
def readTail (g : Grammar) (ctx : Context) (left : Phrase) : Reader Phrase := do
  let t ← current
  if t.isPunctuator "?" then readConditional g ctx left
  else
    match assignmentMark? t with
    | some mark => readAssigned g ctx left mark
    | none =>
      match left.form with
      | .name name =>
        if t.isPunctuator "=>" then readBareArrow g ctx left.start false name left.text
        else return left
      | _ => return left

/-- An expression without commas. -/
def readAssignment (g : Grammar) (ctx : Context) : Reader Phrase := do
  let t ← current
  let next ← following
  if t.isWord "yield" && (ctx.yields || showsOperand next) then readYield g ctx
  else
    match ← readLeadingArrow? g ctx with
    | some arrow => return arrow
    | none => readTail g ctx (← readOperation g ctx 0)

end ReactiveMarkup.Script
