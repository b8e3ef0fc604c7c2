import ReactiveMarkup.Script.Grammar.Binding

/-!
# Functions

The bodies of functions, functions with a keyword, arrows, and the methods of objects and classes.
-/

namespace ReactiveMarkup.Script

open Reader

/-- Statements up to a closing brace. -/
def blockItem (g : Grammar) (ctx : Context) : Reader (Option Clause) := do
  if ← accept "\x7d" then return none else return some (← g.statement ctx false)

/-- Statements between braces. -/
def readBlock (g : Grammar) (ctx : Context) : Reader (List Clause) := do
  expect "\x7b"
  collect (blockItem g ctx) g.limit

/-- The statements of a function body; the directives at its start are left out. -/
def readFunctionBody (g : Grammar) (ctx : Context) : Reader (List Clause) := do
  return (← readBlock g ctx).dropWhile Clause.isDirective

/-- A function that has been read. -/
structure FunctionScan where
  function : Function
  mentions : List Mention

/-- Puts a function with a block together. -/
def FunctionScan.ofBlock (name : Option String) (isArrow isAsync isGenerator : Bool)
    (params : Parameters) (body : List Clause) : FunctionScan where
  function :=
    { id := 0
      signature := ⟨name, isArrow, isAsync, isGenerator, params.texts, boundNames params.mentions⟩
      body := .block (body.map Clause.tree) }
  mentions := name.toList.map .bind ++ params.mentions ++ body.flatMap Clause.mentions

/-- Puts an arrow with a concise body together. -/
def FunctionScan.ofConcise (isAsync : Bool) (params : Parameters) (body : Phrase) :
    FunctionScan where
  function :=
    { id := 0
      signature := ⟨none, true, isAsync, false, params.texts, boundNames params.mentions⟩
      body := .expression body.tree }
  mentions := params.mentions ++ body.mentions

/-- The name of a function. A declaration has one unless it is exported by default; the name of an
expression is read as in the inside of the function. -/
def functionName (ctx : Context) (isNeeded : Bool) : Reader (Option String) := do
  if isNeeded then return some (← takeName ctx)
  else if isNameToken ctx (← current) then return some (← takeName ctx)
  else return none

/-- A function from its keyword on. -/
def readFunction (g : Grammar) (nameContext : Bool → Bool → Context) (isNeeded isAsync : Bool) :
    Reader FunctionScan := do
  expectWord "function"
  let isGenerator ← accept "*"
  let name ← functionName (nameContext isAsync isGenerator) isNeeded
  let ctx := Context.function isAsync isGenerator
  let params ← readParameters g ctx
  let body ← readFunctionBody g ctx
  return .ofBlock name false isAsync isGenerator params body

/-- The body of an arrow. -/
def readArrowBody (g : Grammar) (ctx : Context) (isAsync : Bool) (params : Parameters) :
    Reader FunctionScan := do
  if ← at? "\x7b" then
    let body ← readFunctionBody g (Context.function isAsync false)
    return .ofBlock none true isAsync false params body
  else
    let body ← g.assignment { ctx with yields := false, awaits := isAsync }
    return .ofConcise isAsync params body

/-- Takes the mark of an arrow, which must stand on the line of its parameters. -/
def expectArrow : Reader Unit := do
  if (← current).onNewLine then flaw
  expect "=>"

/-- The phrase of a function. -/
def functionPhrase (start : Cursor) (scan : FunctionScan) : Reader Phrase :=
  phraseFrom start (.function scan.function) scan.mentions

/-- An arrow with one bare parameter, given the place of the parameter. -/
def readBareArrow (g : Grammar) (ctx : Context) (start : Cursor) (isAsync : Bool)
    (parameter : String) (text : String) : Reader Phrase := do
  expectArrow
  let params : Parameters := ⟨[text], [.bind parameter], false⟩
  functionPhrase start (← readArrowBody g ctx isAsync params)

/-- The parameters of an arrow and its mark. -/
def readArrowHead (g : Grammar) (ctx : Context) (isAsync : Bool) : Reader Parameters := do
  if isAsync then takeKeyword
  let params ← readParameters g { ctx with awaits := ctx.awaits || isAsync }
  expectArrow
  return params

/-- The parameters and the body of a method. -/
def readMethod (g : Grammar) (isAsync isGenerator : Bool) : Reader (Parameters × List Mention) := do
  let ctx := Context.function isAsync isGenerator
  let params ← readParameters g ctx
  let body ← readFunctionBody g ctx
  return (params, params.mentions ++ body.flatMap Clause.mentions)

/-- Which kind of member a method is. -/
inductive Accessor
  | getter
  | setter
deriving DecidableEq, Repr

/-- Whether parameters fit an accessor: none for reading, just one for writing. -/
def Accessor.fits (a : Accessor) (params : Parameters) : Bool :=
  match a with
  | .getter => params.texts.isEmpty
  | .setter => params.texts.length == 1 && !params.hasRest

/-- The parameters and the body of an accessor. -/
def readAccessor (g : Grammar) (a : Accessor) : Reader (List Mention) := do
  let (params, mentions) ← readMethod g false false
  require (a.fits params)
  return mentions

end ReactiveMarkup.Script
