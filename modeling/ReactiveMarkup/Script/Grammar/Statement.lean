import ReactiveMarkup.Script.Grammar.Module

/-!
# Statements

Blocks, conditions, returns, labels, declarations and expressions become trees; all other
statements are kept as their text. Under a condition, a loop or a label a statement stands alone,
and declarations other than those of plain functions and of `var` may not stand there.
-/

namespace ReactiveMarkup.Script

open Reader

/-- An expression between parentheses that belongs to a statement. -/
def readHead (g : Grammar) (ctx : Context) : Reader Phrase := do
  expect "("
  let head ← g.expression ctx.bracketed
  expect ")"
  return head

/-- An expression as a statement, or a label with its statement. -/
def readExpressionStatement (g : Grammar) (ctx : Context) : Reader Clause := do
  let phrase ← g.expression ctx.bracketed
  let isLabel ← at? ":"
  match isLabel, phrase.form with
  | true, .name label =>
    advance
    let body ← g.statement ctx true
    return { tree := .labeled label body.tree, mentions := body.mentions }
  | _, form =>
    semicolon
    return {
      tree := .expression phrase.tree
      mentions := phrase.mentions
      isDirective := form == .string }

/-- A condition. -/
def readIf (g : Grammar) (ctx : Context) : Reader Clause := do
  expectWord "if"
  let test ← readHead g ctx
  let consequent ← g.statement ctx true
  if ← acceptWord "else" then
    let alternate ← g.statement ctx true
    return {
      tree := .conditional test.tree consequent.tree (some alternate.tree)
      mentions := test.mentions ++ consequent.mentions ++ alternate.mentions }
  else
    return {
      tree := .conditional test.tree consequent.tree none
      mentions := test.mentions ++ consequent.mentions }

/-- Whether a statement ends at a token, with or without a semicolon. -/
def endsStatement (t : Token) : Bool :=
  t.onNewLine || t.kind == .ended || t.isPunctuator ";" || t.isPunctuator "\x7d"

/-- The return from a function. -/
def readReturn (g : Grammar) (ctx : Context) : Reader Clause := do
  require ctx.returns
  expectWord "return"
  if endsStatement (← current) then
    semicolon
    return { tree := .result none, mentions := [] }
  else
    let value ← g.expression ctx.bracketed
    semicolon
    return { tree := .result (some value.tree), mentions := value.mentions }

/-! ## Loops -/

/-- The rest of a loop that counts, behind its first semicolon. -/
def readCounting (g : Grammar) (ctx : Context) : Reader (List Mention) := do
  let test ← if ← at? ";" then pure [] else pure (← g.expression ctx.bracketed).mentions
  expect ";"
  let step ← if ← at? ")" then pure [] else pure (← g.expression ctx.bracketed).mentions
  return test ++ step

/-- The rest of a loop over the items or keys of a value, at the word between. -/
def readIteration (g : Grammar) (ctx : Context) (isAwait : Bool) : Reader (List Mention) := do
  if ← acceptWord "of" then return (← g.assignment ctx.bracketed).mentions
  else
    require (!isAwait)
    expectWord "in"
    return (← g.expression ctx.bracketed).mentions

/-- Whether the token at hand is the word between the target and the value of a loop. -/
def atIteration : Reader Bool := do
  let t ← current
  return t.isWord "of" || t.isWord "in"

/-- The rest of a loop head, given what it starts with and whether that could stand alone. -/
def readLoopRest (g : Grammar) (ctx : Context) (isAwait isComplete : Bool)
    (start : List Mention) : Reader (List Mention) := do
  if ← atIteration then return start ++ (← readIteration g ctx isAwait)
  else
    require (isComplete && !isAwait)
    expect ";"
    return start ++ (← readCounting g ctx)

/-- Whether a token behind `let` in a loop head shows a declaration. -/
def followsLoopLet (next : Token) : Bool :=
  match next.kind with
  | .punctuator mark => mark == "[" || mark == "\x7b"
  | .word text _ => text != "in" && text != "instanceof"
  | _ => false

/-- Whether a declaration of variables starts in a loop head. -/
def startsLoopDeclaration (t next : Token) : Bool :=
  (declarationKind? t).isSome && (!t.isWord "let" || followsLoopLet next)

/-- Whether a declaration of resources starts in a loop head. Behind `using`, the word `of` is a
name only if it is not the word between target and value. -/
def startsLoopResources (t next later : Token) : Bool :=
  startsResources t next && (!next.isWord "of" || ["=", ";", ":"].any later.isPunctuator)

/-- A declaration in a loop head. -/
def readLoopDeclaration (g : Grammar) (ctx : Context) (isAwait isConstant : Bool) :
    Reader (List Mention) := do
  takeKeyword
  let items ← readDeclarators g { ctx with allowsIn := false }
  readLoopRest g ctx isAwait (items.all (DeclaratorScan.isComplete isConstant))
    (items.flatMap DeclaratorScan.mentions)

/-- A declaration of resources in a loop head, from behind `await`. It is not over keys. -/
def readLoopResources (g : Grammar) (ctx : Context) (isAwait : Bool) :
    Reader (List Mention) := do
  let items ← readResourceItems g { ctx with allowsIn := false }
  require (!(← atWord? "in"))
  readLoopRest g ctx isAwait true (items.flatMap DeclaratorScan.mentions)

/-- A loop head that starts with an expression. Over items, it does not start with `let`, and is not
`async` alone. -/
def readLoopExpression (g : Grammar) (ctx : Context) (isAwait : Bool) :
    Reader (List Mention) := do
  let t ← current
  let next ← following
  let isAsyncOf := t.isWord "async" && !t.isEscaped && next.isWord "of"
  let start ← g.expression { ctx with allowsIn := false }
  if ← atIteration then
    let _ ← takeTarget start
    let isOverItems ← atWord? "of"
    require (!(isOverItems && (t.isWord "let" || isAsyncOf && !isAwait)))
  readLoopRest g ctx isAwait true start.mentions

/-- What stands between the parentheses of a loop. -/
def readLoopHead (g : Grammar) (ctx : Context) (isAwait : Bool) : Reader (List Mention) := do
  let t ← current
  let next ← following
  if t.isPunctuator ";" then
    require (!isAwait)
    advance
    readCounting g ctx
  else if startsLoopDeclaration t next then
    readLoopDeclaration g ctx isAwait (t.isWord "const")
  else if startsLoopResources t next (scanToken next.stop) then readLoopResources g ctx isAwait
  else if t.isWord "await" && next.isWord "using" then
    takeKeyword
    require (!(← current).onNewLine)
    readLoopResources g ctx isAwait
  else readLoopExpression g ctx isAwait

/-- A `for` loop. -/
def readFor (g : Grammar) (ctx : Context) : Reader Clause := do
  let start := (← current).start
  expectWord "for"
  let isAwait ← acceptWord "await"
  require (!isAwait || ctx.awaits)
  expect "("
  let head ← readLoopHead g ctx isAwait
  expect ")"
  let body ← g.statement ctx true
  verbatimClause start (head ++ body.mentions)

/-- A statement of a keyword, a head and a body. -/
def readHeaded (g : Grammar) (ctx : Context) (word : String) : Reader Clause := do
  let start := (← current).start
  expectWord word
  let head ← readHead g ctx
  let body ← g.statement ctx true
  verbatimClause start (head.mentions ++ body.mentions)

/-- A loop with its test at the end. -/
def readDo (g : Grammar) (ctx : Context) : Reader Clause := do
  let start := (← current).start
  expectWord "do"
  let body ← g.statement ctx true
  expectWord "while"
  let test ← readHead g ctx
  let _ ← accept ";"
  verbatimClause start (body.mentions ++ test.mentions)

/-! ## Other statements -/

/-- A jump, with a label if there is one on the same line. -/
def readJump (ctx : Context) : Reader Clause := do
  let start := (← current).start
  takeKeyword
  unless endsStatement (← current) do
    let _ ← takeName ctx
  semicolon
  verbatimClause start []

/-- A thrown value, on the same line as its keyword. -/
def readThrow (g : Grammar) (ctx : Context) : Reader Clause := do
  let start := (← current).start
  expectWord "throw"
  require (!(← current).onNewLine)
  let value ← g.expression ctx.bracketed
  semicolon
  verbatimClause start value.mentions

/-- The binding of a handler, if it has one. -/
def readCaught (g : Grammar) (ctx : Context) : Reader (List Mention) := do
  if ← accept "(" then
    let target ← g.binding ctx
    expect ")"
    return target.mentions
  else return []

/-- The mentions of a block. -/
def blockMentions (g : Grammar) (ctx : Context) : Reader (List Mention) := do
  return (← readBlock g ctx).flatMap Clause.mentions

/-- A statement with a handler, a finalizer or both. -/
def readTry (g : Grammar) (ctx : Context) : Reader Clause := do
  let start := (← current).start
  expectWord "try"
  let body ← blockMentions g ctx
  let isCaught ← atWord? "catch"
  let handler ←
    if ← acceptWord "catch" then do
      let caught ← readCaught g ctx
      pure (caught ++ (← blockMentions g ctx))
    else pure []
  let isFinal ← atWord? "finally"
  let finalizer ← if ← acceptWord "finally" then blockMentions g ctx else pure []
  require (isCaught || isFinal)
  verbatimClause start (body ++ handler ++ finalizer)

/-- The statements of a case. -/
def caseStatement (g : Grammar) (ctx : Context) : Reader (Option Clause) := do
  let t ← current
  if t.isPunctuator "\x7d" || t.isWord "case" || t.isWord "default" then return none
  else return some (← g.statement ctx false)

/-- The cases of a choice up to its end. -/
def caseItem (g : Grammar) (ctx : Context) : Reader (Option (List Mention)) := do
  if ← accept "\x7d" then return none
  else
    let test ←
      if ← acceptWord "case" then pure (← g.expression ctx.bracketed).mentions
      else do
        expectWord "default"
        pure []
    expect ":"
    let body ← collect (caseStatement g ctx) g.limit
    return some (test ++ body.flatMap Clause.mentions)

/-- A choice between cases. -/
def readSwitch (g : Grammar) (ctx : Context) : Reader Clause := do
  let start := (← current).start
  expectWord "switch"
  let head ← readHead g ctx
  expect "\x7b"
  let cases ← collect (caseItem g ctx) g.limit
  verbatimClause start (head.mentions ++ cases.flatten)

/-- A class or an export behind decorators. -/
def readDecorated (g : Grammar) (ctx : Context) (isSingle : Bool) : Reader Clause := do
  let start := (← current).start
  let decorators ← readDecorators g ctx
  if ← atWord? "export" then readExport g ctx decorators
  else
    require (!isSingle)
    let scan ← readDecoratedClass g ctx decorators
    verbatimClause start scan.mentions

/-- A function declaration. One that stands alone is neither asynchronous nor a generator. -/
def readFunctionStatement (g : Grammar) (ctx : Context) (isSingle : Bool) : Reader Clause := do
  let scan ← readFunctionDeclaration g ctx
  let signature := scan.function.signature
  require (!isSingle || (!signature.isAsync && !signature.isGenerator))
  return { tree := .function scan.function, mentions := scan.mentions }

/-- What `let` is at the start of a statement. -/
inductive LetRole
  /-- The keyword of a declaration. -/
  | keyword
  /-- The first operand of an operator, in an expression without commas. -/
  | operand
  /-- The start of a chain of accesses and calls. -/
  | chain
  /-- A name alone. -/
  | name
deriving DecidableEq, Repr

/-- Whether a token is an operator that goes with `let` as its first operand: an assignment, or one
that binds tighter than the logical ones. -/
def takesOperand (t : Token) : Bool :=
  (assignmentMark? t).isSome ||
    (operator? Context.topLevel t).any fun operator => markLevel "&&" < operator.2

/-- The role of `let`, given the token behind it. -/
def letRole (isSingle : Bool) (next : Token) : LetRole :=
  if takesOperand next then .operand
  else if [".", "(", "?."].any next.isPunctuator then .chain
  else if next.isPunctuator ";" || (isSingle && !next.isPunctuator "[") then .name
  else .keyword

/-- An expression that ends its statement. -/
def endExpression (phrase : Phrase) : Reader Clause := do
  semicolon
  return { tree := .expression phrase.tree, mentions := phrase.mentions }

/-- A statement that starts with `let`. A declaration does not stand alone. -/
def readLet (g : Grammar) (ctx : Context) (isSingle : Bool) (t next : Token) : Reader Clause := do
  match letRole isSingle next with
  | .operand => endExpression (← g.assignment ctx.bracketed)
  | .chain => endExpression (← g.expression ctx.bracketed)
  | .name => endExpression (← namePhrase t.start (← takeName ctx))
  | .keyword =>
    require (!isSingle)
    readVariables g ctx .lexical

/-- A statement that is kept as its text, by its keyword. -/
def verbatimStatement? (g : Grammar) (ctx : Context) : String → Option (Reader Clause)
  | "for" => some (readFor g ctx)
  | "while" => some (readHeaded g ctx "while")
  | "with" => some (readHeaded g ctx "with")
  | "do" => some (readDo g ctx)
  | "continue" => some (readJump ctx)
  | "break" => some (readJump ctx)
  | "throw" => some (readThrow g ctx)
  | "try" => some (readTry g ctx)
  | "switch" => some (readSwitch g ctx)
  | "debugger" => some do
    let start := (← current).start
    takeKeyword
    semicolon
    verbatimClause start []
  | _ => none

/-- A declaration of variables. Only `var` may stand alone, and `let` is a keyword only if it is
written without escapes. -/
def declaration? (g : Grammar) (ctx : Context) (isSingle : Bool) (t next : Token) :
    Option (Reader Clause) :=
  match declarationKind? t with
  | none => none
  | some .var => some (readVariables g ctx .var)
  | some .constant => some (if isSingle then failure else readVariables g ctx .constant)
  | some .lexical => if t.isEscaped then none else some (readLet g ctx isSingle t next)

/-- Whether a declaration of resources starts with `await` here. -/
def startsAwaitedResources (t next later : Token) : Bool :=
  t.isWord "await" && !next.onNewLine && startsResources next later

/-- A statement that starts with a word. -/
def readWordStatement (g : Grammar) (ctx : Context) (isSingle : Bool) (t next : Token)
    (word : String) : Reader Clause := do
  match verbatimStatement? g ctx word, declaration? g ctx isSingle t next with
  | some statement, _ => statement
  | none, some statement => statement
  | none, none =>
    if word == "if" then readIf g ctx
    else if word == "return" then readReturn g ctx
    else if startsFunction t next then readFunctionStatement g ctx isSingle
    else if word == "class" then
      require (!isSingle)
      let scan ← readClass g ctx
      verbatimClause t.start scan.mentions
    else if word == "import" && !next.isPunctuator "(" && !next.isPunctuator "." then
      readImportDeclaration g ctx
    else if word == "export" then readExport g ctx []
    else if startsResources t next then
      require (!isSingle)
      readResources g ctx t.start
    else if startsAwaitedResources t next (scanToken next.stop) then
      require (!isSingle)
      takeKeyword
      readResources g ctx t.start
    else readExpressionStatement g ctx

/-- A statement. -/
def readStatement (g : Grammar) (ctx : Context) (isSingle : Bool) : Reader Clause := do
  let t ← current
  let next ← following
  match t.kind with
  | .punctuator "\x7b" =>
    let body ← readBlock g ctx
    return {
      tree := .block 0 (body.map Clause.tree)
      mentions := body.flatMap Clause.mentions }
  | .punctuator ";" =>
    advance
    verbatimClause t.start []
  | .punctuator "@" => readDecorated g ctx isSingle
  | .word word _ => readWordStatement g ctx isSingle t next word
  | _ => readExpressionStatement g ctx

end ReactiveMarkup.Script
