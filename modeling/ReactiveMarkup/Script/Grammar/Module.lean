import ReactiveMarkup.Script.Grammar.Declaration

/-!
# Imports and exports

They are kept as their text. An import binds names; an export uses the names that it lists, and
tells under which names the module exports them.
-/

namespace ReactiveMarkup.Script

open Reader

/-- Takes a quoted literal. -/
def takeString : Reader String := do
  match (← current).kind with
  | .string text _ => advance; return text
  | _ => failure

/-- One entry of the attributes of an import: its key. -/
def importAttribute : Reader (Option String) := do
  if ← accept "\x7d" then return none
  else
    let key ←
      match (← current).kind with
      | .word text _ | .string text _ => do
        advance
        pure text
      | _ => failure
    expect ":"
    let _ ← takeString
    unless ← at? "\x7d" do expect ","
    return some key

/-- The attributes of an import, if there are any. Their keys must not repeat. -/
def importAttributes (g : Grammar) : Reader Unit := do
  let t ← current
  if t.isWord "with" || (t.isWord "assert" && !t.onNewLine) then
    takeKeyword
    expect "\x7b"
    let keys ← collect importAttribute g.limit
    require ((distinctNames keys).length == keys.length)

/-- The module that something comes from. -/
def readSource (g : Grammar) : Reader Unit := do
  let _ ← takeString
  importAttributes g

/-- A name as modules know each other's names. -/
structure ModuleName where
  text : String
  /-- Whether a module could import it under this name. -/
  isImportable : Bool
  /-- Whether a module could export a variable of this name. -/
  isExportable : Bool

/-- The words, besides those that are never names, that name no variable of a module. -/
def strictWords : List String :=
  ["await", "yield", "implements", "interface", "package", "private", "protected", "public",
   "static"]

/-- Takes a name of a module. A quoted one has characters only. -/
def takeModuleName (ctx : Context) : Reader ModuleName := do
  let t ← current
  match t.kind with
  | .word text _ =>
    advance
    return ⟨text, isNameToken ctx t, !isReserved text && !strictWords.contains text⟩
  | .string text wellFormed =>
    require wellFormed
    advance
    return ⟨text, false, false⟩
  | _ => failure

/-- The imported names up to the closing brace. -/
def importItem (ctx : Context) : Reader (Option Mention) := do
  if ← accept "\x7d" then return none
  else
    let name ← takeModuleName ctx
    let localName ←
      if ← acceptWord "as" then takeName ctx
      else do
        require name.isImportable
        pure name.text
    unless ← at? "\x7d" do expect ","
    return some (.bind localName)

/-- The imported names, behind a default import if there is one. -/
def readImportedNames (g : Grammar) (ctx : Context) : Reader (List Mention) := do
  if ← accept "*" then
    expectWord "as"
    return [.bind (← takeName ctx)]
  else
    expect "\x7b"
    collect (importItem ctx) g.limit

/-- Whether the name that an import starts with is a word about when the module is loaded, given
the tokens behind it: the name itself follows. -/
def startsPhase (t next later : Token) : Bool :=
  t.isWord "source" && next.isBindingWord && (!next.isWord "from" || later.isWord "from")

/-- The names of an import that starts with a word. -/
def readNamedImport (g : Grammar) (ctx : Context) : Reader (List Mention) := do
  let t ← current
  let next ← following
  if t.isWord "defer" && next.isPunctuator "*" then
    advance
    readImportedNames g ctx
  else
    if startsPhase t next (scanToken next.stop) then advance
    let name ← takeName ctx
    let others ← if ← accept "," then readImportedNames g ctx else pure []
    return .bind name :: others

/-- The names of an import and the module that they come from. -/
def readImportClause (g : Grammar) (ctx : Context) : Reader (List Mention) := do
  match (← current).kind with
  | .string _ _ =>
    readSource g
    return []
  | .word _ _ =>
    let names ← readNamedImport g ctx
    expectWord "from"
    readSource g
    return names
  | _ =>
    let names ← readImportedNames g ctx
    expectWord "from"
    readSource g
    return names

/-- An import. -/
def readImportDeclaration (g : Grammar) (ctx : Context) : Reader Clause := do
  let start := (← current).start
  expectWord "import"
  let names ← readImportClause g ctx
  semicolon
  verbatimClause start names

/-- An entry of an export list. -/
structure ExportItem where
  localName : ModuleName
  exported : String

/-- The entries of an export list up to the closing brace. -/
def exportItem (ctx : Context) : Reader (Option ExportItem) := do
  if ← accept "\x7d" then return none
  else
    let name ← takeModuleName ctx
    let exported ← if ← acceptWord "as" then pure (← takeModuleName ctx).text else pure name.text
    unless ← at? "\x7d" do expect ","
    return some ⟨name, exported⟩

/-- An export from `start` up to the last token, with the names that it exports. -/
def exportClause (start : Cursor) (exported : List String) (mentions : List Mention) :
    Reader Clause := do
  return { ← verbatimClause start mentions with exported }

/-- Whether a token is a literal that could be meant as the source of an export list. -/
def isLiteral (t : Token) : Bool :=
  match t.kind with
  | .string _ _ | .number => true
  | .word text _ => ["null", "true", "false"].contains text
  | _ => false

/-- An export list, behind its brace. Without a source, also if only the word before it stands
there, it lists variables of the module. -/
def readExportList (g : Grammar) (ctx : Context) (start : Cursor) : Reader Clause := do
  let items ← collect (exportItem ctx) g.limit
  let exported := items.map ExportItem.exported
  if (← acceptWord "from") && isLiteral (← current) then
    readSource g
    semicolon
    exportClause start exported []
  else
    require (items.all fun item => item.localName.isExportable)
    semicolon
    exportClause start exported (items.map fun item => .use item.localName.text)

/-- An export of everything of another module. -/
def readExportAll (g : Grammar) (ctx : Context) (start : Cursor) : Reader Clause := do
  let exported ← if ← acceptWord "as" then pure [(← takeModuleName ctx).text] else pure []
  expectWord "from"
  readSource g
  semicolon
  exportClause start exported []

/-- The decorators of an exported class, given those before the export. They stand on one side of
the keywords only. -/
def readExportDecorators (g : Grammar) (ctx : Context) (before : List (List Mention)) :
    Reader (List (List Mention)) := do
  let behind ← readDecorators g ctx
  require (before.isEmpty || behind.isEmpty)
  return before ++ behind

/-- The export of a default value. A declaration without effect is not counted among the exports. -/
def readExportDefault (g : Grammar) (ctx : Context) (start : Cursor)
    (before : List (List Mention)) : Reader Clause := do
  let decorators ← readExportDecorators g ctx before
  let t ← current
  let next ← following
  if t.isWord "class" || (t.isWord "abstract" && next.isWord "class" && !next.onNewLine) then
    let exported := if t.isWord "class" then ["default"] else []
    let scan ← readDecoratedClass g ctx decorators
    exportClause start exported scan.mentions
  else
    require decorators.isEmpty
    if t.isWord "interface" && !next.onNewLine then
      verbatimClause start (← readInterface g ctx)
    else if startsFunction t next then
      let isAsync ← acceptWord "async"
      let scan ← readFunction g (fun _ _ => ctx) false isAsync
      exportClause start ["default"] scan.mentions
    else
      let value ← g.assignment ctx.bracketed
      semicolon
      exportClause start ["default"] value.mentions

/-- The export of a declaration. Only a class has decorators. -/
def readExportedDeclaration (g : Grammar) (ctx : Context) (start : Cursor)
    (before : List (List Mention)) : Reader Clause := do
  let decorators ← readExportDecorators g ctx before
  let t ← current
  let next ← following
  match declarationKind? t with
  | some kind =>
    require decorators.isEmpty
    let items ← readVariableItems g ctx kind
    exportClause start (items.flatMap DeclaratorScan.names)
      (items.flatMap DeclaratorScan.mentions)
  | none =>
    if startsFunction t next then
      require decorators.isEmpty
      let scan ← readFunctionDeclaration g ctx
      exportClause start scan.function.signature.name.toList scan.mentions
    else
      let scan ← readClass g ctx
      exportClause start scan.name.toList (decorators.flatten ++ scan.mentions)

/-- An export, behind decorators if there are any. A list of names leaves them without effect. -/
def readExport (g : Grammar) (ctx : Context) (decorators : List (List Mention)) :
    Reader Clause := do
  let start := (← current).start
  expectWord "export"
  if ← accept "\x7b" then readExportList g ctx start
  else if ← accept "*" then readExportAll g ctx start
  else if ← acceptWord "default" then readExportDefault g ctx start decorators
  else readExportedDeclaration g ctx start decorators

end ReactiveMarkup.Script
