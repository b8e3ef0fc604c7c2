import ReactiveMarkup.Script.Grammar.Function

/-!
# Array, object and template literals

Arrays and objects can turn out to be destructuring targets, when an assignment follows them. While
they are read, it is noted whether all their items would fit, and how many initial values of
members, which only targets can have, they hold.
-/

namespace ReactiveMarkup.Script

open Reader

/-- One item of an array or object literal. -/
structure LiteralItem where
  mentions : List Mention
  /-- Whether it would fit into a destructuring target. -/
  fits : Bool
  covers : Nat

namespace LiteralItem

/-- An item that is a value. -/
def ofValue (p : Phrase) : LiteralItem :=
  ⟨p.mentions, p.isItem, if p.form == .pattern then p.covers else 0⟩

/-- An item that no target can have. -/
def rigid (mentions : List Mention) : LiteralItem := ⟨mentions, false, 0⟩

end LiteralItem

/-- The phrase of an array or object literal. -/
def literalPhrase (start : Cursor) (items : List LiteralItem) : Reader Phrase := do
  let form := if items.all LiteralItem.fits then Form.pattern else .other
  let phrase ← verbatimAs form start (items.flatMap LiteralItem.mentions)
  return { phrase with covers := items.foldl (fun total item => total + item.covers) 0 }

/-- The items of an array up to its end. A spread item fits a target only at the end. -/
def arrayItem (g : Grammar) (ctx : Context) : Reader (Option LiteralItem) := do
  if ← accept "]" then return none
  else if ← accept "," then return some ⟨[], true, 0⟩
  else if ← accept "..." then
    let item ← g.assignment ctx
    let isLast ← at? "]"
    unless isLast do expect ","
    return some { LiteralItem.ofValue item with
      fits := isLast && item.form != .defaulted && item.isItem }
  else
    let item ← g.assignment ctx
    unless ← at? "]" do expect ","
    return some (.ofValue item)

/-- An array. -/
def readArray (g : Grammar) (ctx : Context) : Reader Phrase := do
  let start := (← current).start
  expect "["
  literalPhrase start (← collect (arrayItem g ctx.bracketed) g.limit)

/-- Whether `async` stands before the method that it describes, on the same line. -/
def describesAsync (t next : Token) : Bool :=
  t.isWord "async" && !next.onNewLine && (startsKey next || next.isPunctuator "*")

/-- A method of an object, from its key on. -/
def objectMethod (g : Grammar) (ctx : Context) (isAsync isGenerator : Bool) :
    Reader LiteralItem := do
  let key ← memberKey g ctx
  match key with
  | .hidden _ => failure
  | _ =>
    let (_, mentions) ← readMethod g isAsync isGenerator
    return .rigid (key.mentions ++ mentions)

/-- An accessor of an object, from its key on. -/
def objectAccessor (g : Grammar) (ctx : Context) (a : Accessor) : Reader LiteralItem := do
  let key ← memberKey g ctx
  match key with
  | .hidden _ => failure
  | _ => return .rigid (key.mentions ++ (← readAccessor g a))

/-- A member of an object that is a name, with an initial value if it has one. -/
def shortMember (g : Grammar) (ctx : Context) (isName : Bool) : MemberKey → Reader LiteralItem
  | .word name => do
    require isName
    if ← accept "=" then
      let value ← g.assignment ctx
      addCover
      return ⟨.use name :: value.mentions, true, 1⟩
    else return ⟨[.use name], true, 0⟩
  | _ => failure

/-- A member of an object with its key and value. -/
def plainMember (g : Grammar) (ctx : Context) : Reader LiteralItem := do
  let isName := isNameToken ctx (← current)
  let key ← memberKey g ctx
  match key with
  | .hidden _ => failure
  | key =>
    if ← accept ":" then
      let value := LiteralItem.ofValue (← g.assignment ctx)
      return { value with mentions := key.mentions ++ value.mentions }
    else if ← at? "(" then
      let (_, mentions) ← readMethod g false false
      return .rigid (key.mentions ++ mentions)
    else shortMember g ctx isName key

/-- One member of an object. -/
def objectMember (g : Grammar) (ctx : Context) : Reader LiteralItem := do
  let t ← current
  let next ← following
  if t.isPunctuator "..." then
    advance
    let item ← g.assignment ctx
    return ⟨item.mentions, item.place.isSome && (← at? "\x7d"), 0⟩
  else if t.isPunctuator "*" then
    advance
    objectMethod g ctx false true
  else if describesAsync t next then
    takeKeyword
    objectMethod g ctx true (← accept "*")
  else if describesAccessor t next "get" then
    takeKeyword
    objectAccessor g ctx .getter
  else if describesAccessor t next "set" then
    takeKeyword
    objectAccessor g ctx .setter
  else plainMember g ctx

/-- The members of an object up to its end. -/
def objectItem (g : Grammar) (ctx : Context) : Reader (Option LiteralItem) := do
  if ← accept "\x7d" then return none
  else
    let item ← objectMember g ctx
    unless ← at? "\x7d" do expect ","
    return some item

/-- An object. -/
def readObject (g : Grammar) (ctx : Context) : Reader Phrase := do
  let start := (← current).start
  expect "\x7b"
  literalPhrase start (← collect (objectItem g ctx.bracketed) g.limit)

/-- The substitutions of a template literal up to its end. Ill-formed escapes are allowed only
under a tag. -/
def templateItem (g : Grammar) (ctx : Context) (isTagged : Bool) :
    Reader (Option (List Mention)) := do
  match (← current).kind with
  | .template closed wellFormed =>
    require (wellFormed || isTagged)
    advance
    if closed then return none
    else
      let item ← g.expression ctx.bracketed
      require (← at? "\x7d")
      retake Token.asTemplate fun t _ => isSpelled_asTemplate t
      return some item.mentions
  | _ => failure

/-- The substitutions of a template literal. -/
def readTemplate (g : Grammar) (ctx : Context) (isTagged : Bool) : Reader (List Mention) := do
  return (← collect (templateItem g ctx isTagged) g.limit).flatten

end ReactiveMarkup.Script
