import ReactiveMarkup.Script.Grammar.Class

/-!
# Operands, accesses and calls

The innermost expressions, and the chains of accesses and calls that follow them. A chain with an
optional link is kept as one text.
-/

namespace ReactiveMarkup.Script

open Reader

/-- An expression between parentheses. It can be assigned to if the inner one is a simple target. -/
def readParenthesized (g : Grammar) (ctx : Context) : Reader Phrase := do
  let start := (← current).start
  expect "("
  let inner ← g.expression ctx.bracketed
  expect ")"
  let phrase ← phraseFrom start (.parenthesized inner.tree) inner.mentions
  return { phrase with place := inner.place }

/-- A literal of one token. -/
def tokenPhrase (form : Form) : Reader Phrase := do
  let start := (← current).start
  takeKeyword
  verbatimAs form start []

/-- A function expression, behind `async` if that stands before it. -/
def readFunctionExpression (g : Grammar) (isAsync : Bool) : Reader Phrase := do
  let start := (← current).start
  if isAsync then takeKeyword
  functionPhrase start (← readFunction g Context.function false isAsync)

/-- A class expression. -/
def readClassExpression (g : Grammar) (ctx : Context) : Reader Phrase := do
  let start := (← current).start
  let scan ← readDecoratedClass g ctx (← readDecorators g ctx)
  verbatimFrom start scan.mentions

/-- An expression that starts with a word. -/
def readWord (g : Grammar) (ctx : Context) (word : String) : Reader Phrase := do
  let start := (← current).start
  let next ← following
  if word == "this" || word == "null" || word == "true" || word == "false" then
    tokenPhrase .other
  else if word == "function" then readFunctionExpression g false
  else if word == "class" then readClassExpression g ctx
  else if word == "async" && next.isWord "function" && !next.onNewLine then
    readFunctionExpression g true
  else namePhrase start (← takeName ctx)

/-- An innermost expression. -/
def readPrimary (g : Grammar) (ctx : Context) : Reader Phrase := do
  let t ← current
  match t.kind with
  | .word text _ => readWord g ctx text
  | .number => tokenPhrase .other
  | .string _ _ => tokenPhrase .string
  | .template _ _ =>
    let mentions ← readTemplate g ctx false
    verbatimFrom t.start mentions
  | .punctuator "(" => readParenthesized g ctx
  | .punctuator "[" => readArray g ctx
  | .punctuator "\x7b" => readObject g ctx
  | .punctuator "@" => readClassExpression g ctx
  | .punctuator mark =>
    require (mark == "/" || mark == "/=")
    retake Token.asRegularExpression fun t _ => isSpelled_asRegularExpression t
    require ((← current).kind == .regularExpression)
    tokenPhrase .other
  | _ => failure

/-- An argument of a call; one that is spread is kept as its text. -/
def readArgument (g : Grammar) (ctx : Context) : Reader Phrase := do
  let start := (← current).start
  if ← accept "..." then
    let inner ← g.assignment ctx
    verbatimFrom start inner.mentions
  else g.assignment ctx

/-- The arguments of a call up to the closing parenthesis. -/
def argumentItem (g : Grammar) (ctx : Context) : Reader (Option Phrase) := do
  if ← accept ")" then return none
  else
    let item ← readArgument g ctx
    unless ← at? ")" do expect ","
    return some item

/-- The arguments of a call between parentheses. -/
def readArguments (g : Grammar) (ctx : Context) : Reader (List Phrase) := do
  expect "("
  collect (argumentItem g ctx.bracketed) g.limit

/-- A chain of accesses and calls as far as it is read. -/
structure Chain where
  phrase : Phrase
  /-- Whether it has an optional link. -/
  isOptional : Bool

namespace Chain

/-- A chain with a link that is kept as text and can be assigned to. -/
def extendVerbatim (c : Chain) (mentions : List Mention) : Reader Chain := do
  let phrase ← verbatimFrom c.phrase.start (c.phrase.mentions ++ mentions)
  return { c with phrase := { phrase with place := some phrase.verbatimTarget } }

/-- A chain with a link that is kept as text and cannot be assigned to. -/
def extendRigid (c : Chain) (mentions : List Mention) : Reader Chain := do
  return { c with phrase := ← verbatimFrom c.phrase.start (c.phrase.mentions ++ mentions) }

/-- A chain with an access by name. -/
def extendMember (c : Chain) (name : String) : Reader Chain := do
  let phrase ← phraseFrom c.phrase.start (.member c.phrase.tree name false) c.phrase.mentions
  return { c with phrase := { phrase with place := some (.member c.phrase.tree name) } }

/-- A chain with a call. -/
def extendCall (c : Chain) (arguments : List Phrase) : Reader Chain := do
  return { c with
    phrase := ← phraseFrom c.phrase.start (.call c.phrase.tree (arguments.map Phrase.tree) false)
      (c.phrase.mentions ++ arguments.flatMap Phrase.mentions) }

/-- The phrase of a chain. An optional one is one text and cannot be assigned to. -/
def close (c : Chain) : Reader Phrase :=
  if c.isOptional then verbatimFrom c.phrase.start c.phrase.mentions else return c.phrase

end Chain

/-- The link that a name or a private name makes, behind its mark. -/
def readNamedLink (c : Chain) : Reader Chain := do
  match (← current).kind with
  | .word name _ =>
    advance
    c.extendMember name
  | .privateName _ =>
    advance
    c.extendVerbatim []
  | _ => failure

/-- An access by a computed key. -/
def readComputedLink (g : Grammar) (ctx : Context) (c : Chain) : Reader Chain := do
  expect "["
  let key ← g.expression ctx.bracketed
  expect "]"
  c.extendVerbatim key.mentions

/-- A link behind the mark of an optional access. -/
def readOptionalLink (g : Grammar) (ctx : Context) (c : Chain) : Reader Chain := do
  let c := { c with isOptional := true }
  if ← at? "(" then c.extendCall (← readArguments g ctx)
  else if ← at? "[" then readComputedLink g ctx c
  else readNamedLink c

/-- One more link of a chain, if there is one. Calls and optional links are left out where a
constructor is named, and brackets and optional links in a decorator. -/
def readNextLink (g : Grammar) (ctx : Context) (allowsCalls : Bool) (c : Chain) :
    Reader (Option Chain) := do
  let t ← current
  match t.kind with
  | .punctuator "." =>
    advance
    return some (← readNamedLink c)
  | .punctuator "?." =>
    require (allowsCalls && !ctx.decorates)
    advance
    return some (← readOptionalLink g ctx c)
  | .punctuator "[" =>
    if ctx.decorates then return none else return some (← readComputedLink g ctx c)
  | .punctuator "(" =>
    if allowsCalls then return some (← c.extendCall (← readArguments g ctx)) else return none
  | .template _ _ =>
    require (!c.isOptional)
    return some (← c.extendRigid (← readTemplate g ctx true))
  | _ => return none

/-- The links of a chain, at most `fuel` of them. -/
def readLinks (g : Grammar) (ctx : Context) (allowsCalls : Bool) : Nat → Chain → Reader Chain
  | 0, _ => failure
  | fuel + 1, c => do
    match ← readNextLink g ctx allowsCalls c with
    | none => return c
    | some c => readLinks g ctx allowsCalls fuel c

/-- The arguments of an import up to the closing parenthesis. -/
def plainArgumentItem (g : Grammar) (ctx : Context) : Reader (Option Phrase) := do
  if ← accept ")" then return none
  else
    let item ← g.assignment ctx
    unless ← at? ")" do expect ","
    return some item

/-- An import that is called: it has one argument or two, and none is spread. -/
def readImportCall (g : Grammar) (ctx : Context) (start : Cursor) : Reader Phrase := do
  expect "("
  let arguments ← collect (plainArgumentItem g ctx.bracketed) g.limit
  require (0 < arguments.length && arguments.length ≤ 2)
  verbatimAs .importCall start (arguments.flatMap Phrase.mentions)

/-- `import.meta` or an import that is called. -/
def readImport (g : Grammar) (ctx : Context) : Reader Phrase := do
  let start := (← current).start
  expectWord "import"
  if ← accept "." then
    if ← acceptWord "meta" then verbatimFrom start []
    else
      unless ← acceptWord "source" do expectWord "defer"
      readImportCall g ctx start
  else readImportCall g ctx start

/-- What a chain starts with. `super` must be followed by a link. -/
def readChainStart (g : Grammar) (ctx : Context) : Reader Phrase := do
  let t ← current
  if t.isWord "super" then
    let phrase ← tokenPhrase .other
    require ((← at? ".") || (← at? "[") || (← at? "("))
    return phrase
  else if t.isWord "import" then readImport g ctx
  else if t.isWord "new" then g.construction ctx
  else readPrimary g ctx

/-- An expression that starts with `new`. -/
def readConstruction (g : Grammar) (ctx : Context) : Reader Phrase := do
  let start := (← current).start
  expectWord "new"
  if ← accept "." then
    expectWord "target"
    verbatimFrom start []
  else
    let callee ← readLinks g ctx false g.limit ⟨← readChainStart g ctx, false⟩
    require (callee.phrase.form != .importCall)
    let arguments ← if ← at? "(" then readArguments g ctx else pure []
    verbatimFrom start (callee.phrase.mentions ++ arguments.flatMap Phrase.mentions)

/-- A chain of accesses and calls. -/
def readAccess (g : Grammar) (ctx : Context) : Reader Phrase := do
  let chain ← readLinks g ctx true g.limit ⟨← readChainStart g ctx, false⟩
  chain.close

end ReactiveMarkup.Script
