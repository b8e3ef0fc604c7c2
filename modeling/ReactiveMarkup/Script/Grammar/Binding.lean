import ReactiveMarkup.Script.Grammar.Decorator

/-!
# Declared patterns and parameters

A declaration binds a name, or takes an array or an object apart and binds the names in it. The
parameters of a function are such patterns, each with a default value if wanted; the last one may
take the rest of the arguments.
-/

namespace ReactiveMarkup.Script

open Reader

/-- A part of a pattern: what it mentions, and the names that it binds itself. -/
structure PatternPart where
  mentions : List Mention
  names : List String

/-- A default value, if there is one. -/
def defaultValue (g : Grammar) (ctx : Context) : Reader (List Mention) := do
  if ← accept "=" then return (← g.assignment ctx.bracketed).mentions else return []

/-- A pattern with a default value, if there is one. -/
def bindingItem (g : Grammar) (ctx : Context) : Reader PatternPart := do
  let item ← g.binding ctx
  return ⟨item.mentions ++ (← defaultValue g ctx), item.names⟩

/-- The end of a part that takes the rest of a value: it is the last one, and no comma follows. -/
def endRest (close : String) : Reader Unit := do
  unless ← at? close do
    expect ","
    require (← at? close)
    flaw

/-- The items of an array pattern up to its end. -/
def arrayBindingItem (g : Grammar) (ctx : Context) : Reader (Option PatternPart) := do
  if ← accept "]" then return none
  else if ← accept "," then return some ⟨[], []⟩
  else if ← accept "..." then
    let item ← g.binding ctx
    endRest "]"
    return some ⟨item.mentions, item.names⟩
  else
    let item ← bindingItem g ctx
    unless ← at? "]" do expect ","
    return some item

/-- The key of a member: the words and brackets that may name one. -/
inductive MemberKey
  | word (text : String)
  | string (text : String)
  | number
  | computed (mentions : List Mention)
  | hidden (text : String)

/-- The names that a key mentions. -/
def MemberKey.mentions : MemberKey → List Mention
  | .computed mentions => mentions
  | _ => []

/-- Whether a key is the given word or quoted literal. -/
def MemberKey.isNamed (name : String) : MemberKey → Bool
  | .word text => text == name
  | .string text => text == name
  | _ => false

/-- Takes the key of a member. -/
def memberKey (g : Grammar) (ctx : Context) : Reader MemberKey := do
  let t ← current
  match t.kind with
  | .word text _ => advance; return .word text
  | .string text _ => advance; return .string text
  | .number => advance; return .number
  | .privateName text => advance; return .hidden text
  | .punctuator "[" =>
    advance
    let key ← g.assignment ctx.bracketed
    expect "]"
    return .computed key.mentions
  | _ => failure

/-- One member of an object pattern. -/
def memberBinding (g : Grammar) (ctx : Context) : Reader PatternPart := do
  let t ← current
  let next ← following
  if t.isBindingWord && !next.isPunctuator ":" then
    let name ← takeWord
    return ⟨.bind name :: (← defaultValue g ctx), [name]⟩
  else
    let key ← memberKey g ctx
    match key with
    | .hidden _ => failure
    | _ =>
      expect ":"
      let item ← bindingItem g ctx
      return { item with mentions := key.mentions ++ item.mentions }

/-- The members of an object pattern up to its end. -/
def objectBindingItem (g : Grammar) (ctx : Context) : Reader (Option PatternPart) := do
  if ← accept "\x7d" then return none
  else if ← accept "..." then
    let name ← takeName ctx
    endRest "\x7d"
    return some ⟨[.bind name], [name]⟩
  else
    let item ← memberBinding g ctx
    unless ← at? "\x7d" do expect ","
    return some item

/-- A pattern that is kept as its text. -/
def destructuring (start : Cursor) (parts : List PatternPart) : Reader Binding := do
  let mentions := parts.flatMap PatternPart.mentions
  return ⟨.destructure (start.slice (← lastStop)) (boundNames mentions), mentions,
    parts.flatMap PatternPart.names⟩

/-- A declared pattern. -/
def readBinding (g : Grammar) (ctx : Context) : Reader Binding := do
  let start := (← current).start
  if ← accept "[" then destructuring start (← collect (arrayBindingItem g ctx) g.limit)
  else if ← accept "\x7b" then destructuring start (← collect (objectBindingItem g ctx) g.limit)
  else
    let name ← takeName ctx
    return ⟨.identifier name, [.bind name], [name]⟩

/-- A parameter: its text, its mentions, and whether it takes the rest of the arguments. -/
structure ParameterScan where
  text : String
  mentions : List Mention
  isRest : Bool

/-- A parameter that takes the rest of the arguments, behind its dots. It has no default value, and
nothing follows it. -/
def readRestParameter (g : Grammar) (ctx : Context) (start : Cursor) : Reader ParameterScan := do
  let item ← g.binding ctx
  if ← at? "=" then flaw
  let value ← defaultValue g ctx
  let text := start.slice (← lastStop)
  unless ← at? ")" do
    expect ","
    flaw
  return ⟨text, item.mentions ++ value, true⟩

/-- The parameters up to the closing parenthesis. -/
def parameterItem (g : Grammar) (ctx : Context) : Reader (Option ParameterScan) := do
  let start := (← current).start
  if ← accept ")" then return none
  else if ← accept "..." then return some (← readRestParameter g ctx start)
  else
    let decorators ← readDecorators g ctx
    let item ← bindingItem g ctx
    let text := start.slice (← lastStop)
    unless ← at? ")" do expect ","
    return some ⟨text, decorators.flatten ++ item.mentions, false⟩

/-- The parameters of a function between parentheses. -/
def readParameters (g : Grammar) (ctx : Context) : Reader Parameters := do
  expect "("
  let items ← collect (parameterItem g ctx.bracketed) g.limit
  return ⟨items.map ParameterScan.text, items.flatMap ParameterScan.mentions,
    items.any ParameterScan.isRest⟩

end ReactiveMarkup.Script
