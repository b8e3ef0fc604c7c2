import ReactiveMarkup.Script.Grammar.Operator

/-!
# Declarations

Declarations of variables, functions and classes.
-/

namespace ReactiveMarkup.Script

open Reader

/-- A binding of a declaration that has been read. -/
structure DeclaratorScan where
  tree : Declarator
  mentions : List Mention
  /-- The names that its pattern itself binds. -/
  names : List String

/-- Whether a binding is complete: constants and patterns need an initial value. -/
def DeclaratorScan.isComplete (isConstant : Bool) (d : DeclaratorScan) : Bool :=
  d.tree.init.isSome ||
    match d.tree.pattern with
    | .identifier _ => !isConstant
    | .destructure _ _ => false

/-- One binding with its initial value, if it has one. -/
def readDeclarator (g : Grammar) (ctx : Context) : Reader DeclaratorScan := do
  let target ← g.binding ctx
  if ← accept "=" then
    let init ← g.assignment ctx
    return ⟨⟨target.pattern, some init.tree⟩, target.mentions ++ init.mentions, target.names⟩
  else return ⟨⟨target.pattern, none⟩, target.mentions, target.names⟩

/-- The bindings after the first. -/
def declaratorItem (g : Grammar) (ctx : Context) : Reader (Option DeclaratorScan) := do
  if ← accept "," then return some (← readDeclarator g ctx) else return none

/-- The bindings of a declaration. -/
def readDeclarators (g : Grammar) (ctx : Context) : Reader (List DeclaratorScan) := do
  let first ← readDeclarator g ctx
  return first :: (← collect (declaratorItem g ctx) g.limit)

/-- The kind of declaration that a keyword starts. -/
def declarationKind? (t : Token) : Option DeclarationKind :=
  if t.isWord "var" then some .var
  else if t.isWord "let" then some .lexical
  else if t.isWord "const" then some .constant
  else none

/-- The bindings of a declaration of variables, from its keyword on. -/
def readVariableItems (g : Grammar) (ctx : Context) (kind : DeclarationKind) :
    Reader (List DeclaratorScan) := do
  takeKeyword
  let items ← readDeclarators g ctx
  require (items.all (DeclaratorScan.isComplete (kind == .constant)))
  semicolon
  return items

/-- A declaration of variables from its keyword on. -/
def readVariables (g : Grammar) (ctx : Context) (kind : DeclarationKind) : Reader Clause := do
  let items ← readVariableItems g ctx kind
  return {
    tree := .declaration kind (items.map DeclaratorScan.tree)
    mentions := items.flatMap DeclaratorScan.mentions }

/-- The bindings of a declaration of resources, from behind `await`. Each is a name. -/
def readResourceItems (g : Grammar) (ctx : Context) : Reader (List DeclaratorScan) := do
  expectWord "using"
  let t ← current
  require (!t.onNewLine && !t.isWord "await")
  let items ← readDeclarators g ctx
  require (items.all fun d => d.tree.pattern matches .identifier _)
  return items

/-- A declaration of resources from behind `await`, which is kept as its text. -/
def readResources (g : Grammar) (ctx : Context) (start : Cursor) : Reader Clause := do
  let items ← readResourceItems g ctx
  require (items.all fun d => d.tree.init.isSome)
  semicolon
  verbatimClause start (items.flatMap DeclaratorScan.mentions)

/-- A declaration of a function. The name is read as outside the function. -/
def readFunctionDeclaration (g : Grammar) (ctx : Context) : Reader FunctionScan := do
  let isAsync ← acceptWord "async"
  readFunction g (fun _ _ => ctx) true isAsync

/-- Whether a function declaration starts here. -/
def startsFunction (t next : Token) : Bool :=
  t.isWord "function" || (t.isWord "async" && next.isWord "function" && !next.onNewLine)

/-- Whether a declaration of resources starts with `using` here. -/
def startsResources (t next : Token) : Bool :=
  t.isWord "using" && next.isBindingWord && !next.onNewLine

end ReactiveMarkup.Script
