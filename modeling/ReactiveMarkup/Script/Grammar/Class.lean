import ReactiveMarkup.Script.Grammar.Literal
import ReactiveMarkup.Script.Grammar.TypeTerm

/-!
# Classes and interfaces

Classes and interfaces are kept as their text; what is read of them is whether they are well formed
and which names they mention.
-/

namespace ReactiveMarkup.Script

open Reader

/-! ## Members of classes -/

/-- Whether a key may name a method: a constructor is a plain method, and the prototype cannot be
a static one. -/
def fitsMethod (isStatic isPlain : Bool) (key : MemberKey) : Bool :=
  match key with
  | .hidden text => text != "constructor"
  | key =>
    !(isStatic && key.isNamed "prototype") &&
      (isStatic || isPlain || !key.isNamed "constructor")

/-- Whether a key may name a field. -/
def fitsField (isStatic : Bool) (key : MemberKey) : Bool :=
  match key with
  | .hidden text => text != "constructor"
  | key => !key.isNamed "constructor" && !(isStatic && key.isNamed "prototype")

/-- Whether a key may name a field with accessors. -/
def fitsAccessorField : MemberKey → Bool
  | .hidden text => text != "constructor"
  | _ => true

/-- Whether modifiers may describe a method or an accessor: it has a body, and cannot be assigned
to. -/
def modifiersFitMethod (modifiers : List String) : Bool :=
  !modifiers.contains "declare" && !modifiers.contains "readonly"

/-- The modifiers that may describe a field with accessors. -/
def accessorFieldModifiers : List String :=
  ["accessor", "static", "abstract", "override"] ++ accessModifiers

/-- The inside of a field's initial value. -/
def fieldContext : Context := ⟨true, false, false, false, false⟩

/-- A field, from behind its key. -/
def classField (g : Grammar) (modifiers : List String) (key : MemberKey) :
    Reader (List Mention) := do
  require (fitsField (modifiers.contains "static") key)
  let value ← if ← accept "=" then pure (← g.expression fieldContext).mentions else pure []
  semicolon
  return key.mentions ++ value

/-- A field with accessors, from behind its key. -/
def accessorField (g : Grammar) (ctx : Context) (modifiers : List String) (key : MemberKey) :
    Reader (List Mention) := do
  require (modifiers.all accessorFieldModifiers.contains && fitsAccessorField key)
  let value ← if ← accept "=" then pure (← g.assignment ctx).mentions else pure []
  semicolon
  return key.mentions ++ value

/-- An accessor of a class, from its key on. -/
def classAccessor (g : Grammar) (ctx : Context) (modifiers : List String) (a : Accessor) :
    Reader (List Mention) := do
  let key ← memberKey g ctx
  require (fitsMethod (modifiers.contains "static") false key)
  require (modifiersFitMethod modifiers && !modifiers.contains "async")
  return key.mentions ++ (← readAccessor g a)

/-- A method of a class, from behind its key. -/
def classMethod (g : Grammar) (modifiers : List String) (isGenerator : Bool) (key : MemberKey) :
    Reader (List Mention) := do
  let isPlain := !isGenerator && modifiers.all accessModifiers.contains
  require (fitsMethod (modifiers.contains "static") isPlain key)
  require (modifiersFitMethod modifiers)
  let (_, mentions) ← readMethod g (modifiers.contains "async") isGenerator
  return key.mentions ++ mentions

/-- A method or field of a class, from behind its modifiers. A mark behind the key may say that the
member is optional, or that a field is set elsewhere. -/
def classMember (g : Grammar) (ctx : Context) (modifiers : List String) :
    Reader (List Mention) := do
  let isGenerator ← accept "*"
  let key ← memberKey g ctx
  let isOptional ← accept "?"
  if isGenerator || (← at? "(") then classMethod g modifiers isGenerator key
  else
    let isSet ← accept "!"
    require (!(isOptional && isSet))
    if modifiers.contains "accessor" then
      require (!isOptional)
      accessorField g ctx modifiers key
    else classField g modifiers key

/-- Whether brackets at hand describe the keys of an object instead of computing one: they hold a
name with a colon, a comma or an optional mark behind it, or a modifier and a name. -/
def startsIndexDescription (bracket : Token) : Bool :=
  let first := scanToken bracket.stop
  let second := scanToken first.stop
  let third := scanToken second.stop
  first.isPunctuator "..." || first.isPunctuator "]" ||
    (first.isBindingWord && modifierWords.any first.isWord && second.isBindingWord) ||
    (first.isBindingWord &&
      ([":", ","].any second.isPunctuator ||
        (second.isPunctuator "?" && [":", ",", "]"].any third.isPunctuator)))

/-- The inside of a static block. -/
def staticContext : Context := ⟨true, false, true, false, false⟩

/-- An element of a class, given its decorators and modifiers. Only members have such. -/
def classElement (g : Grammar) (ctx : Context) (decorators : List (List Mention))
    (modifiers : List String) : Reader (List Mention) := do
  let t ← current
  let next ← following
  if t.isWord "static" && next.isPunctuator "\x7b" then
    require (decorators.isEmpty && modifiers.isEmpty)
    takeKeyword
    return (← readBlock g staticContext).flatMap Clause.mentions
  else if describesAccessor t next "get" then
    takeKeyword
    return decorators.flatten ++ (← classAccessor g ctx modifiers .getter)
  else if describesAccessor t next "set" then
    takeKeyword
    return decorators.flatten ++ (← classAccessor g ctx modifiers .setter)
  else
    require (!(t.isPunctuator "[" && startsIndexDescription t))
    return decorators.flatten ++ (← classMember g ctx modifiers)

/-- The elements of a class up to its end. -/
def classItem (g : Grammar) (ctx : Context) : Reader (Option (List Mention)) := do
  if ← accept "\x7d" then return none
  else if ← accept ";" then return some []
  else
    let decorators ← readDecorators g ctx
    let modifiers ← readModifiers [] g.limit
    require (!modifiers.contains "export")
    return some (← classElement g ctx decorators modifiers)

/-! ## Classes -/

/-- A class that has been read. -/
structure ClassScan where
  name : Option String
  mentions : List Mention

/-- The name of a class, if it has one. -/
def className (ctx : Context) : Reader (Option String) := do
  let t ← current
  if isNameToken ctx t && !t.isWord "implements" then return some (← takeName ctx)
  else return none

/-- The class that a class extends, if it extends one. -/
def readExtended (g : Grammar) (ctx : Context) : Reader (List Mention) := do
  if ← acceptWord "extends" then
    let parent ← g.access ctx
    return parent.mentions ++ (← readTypeArguments g)
  else return []

/-- An interface with its type arguments. -/
def readInterfaceName (g : Grammar) : Reader (List Mention) := do
  let name ← readTypeName g
  if (← current).onNewLine then return name else return name ++ (← readTypeArguments g)

/-- A further interface of a list. -/
def interfaceItem (g : Grammar) : Reader (Option (List Mention)) := do
  if ← accept "," then return some (← readInterfaceName g) else return none

/-- The interfaces behind a word, if that word is at hand. -/
def readInterfaces (g : Grammar) (word : String) : Reader (List Mention) := do
  if ← acceptWord word then
    let first ← readInterfaceName g
    return first ++ (← collect (interfaceItem g) g.limit).flatten
  else return []

/-- A class from its keyword on. -/
def readClass (g : Grammar) (ctx : Context) : Reader ClassScan := do
  expectWord "class"
  let name ← className ctx
  let parent ← readExtended g { ctx with decorates := false }
  let interfaces ← readInterfaces g "implements"
  expect "\x7b"
  let elements ← collect (classItem g ctx.bracketed) g.limit
  return ⟨name, name.toList.map .bind ++ parent ++ interfaces ++ elements.flatten⟩

/-- A class behind its decorators, if it has any, from its modifiers on. -/
def readDecoratedClass (g : Grammar) (ctx : Context) (decorators : List (List Mention)) :
    Reader ClassScan := do
  let modifiers ← readModifiers [] g.limit
  require (modifiers.all ["abstract", "declare"].contains)
  let scan ← readClass g ctx
  return { scan with mentions := decorators.flatten ++ scan.mentions }

/-! ## Interfaces -/

/-- The parameters of a member of an interface, if it has any. -/
def signatureParameters (g : Grammar) (ctx : Context) : Reader (List Mention) := do
  if ← at? "(" then return (← readParameters g ctx).mentions else return []

/-- A member of an interface. -/
def interfaceMember (g : Grammar) (ctx : Context) : Reader (List Mention) := do
  let t ← current
  let next ← following
  if t.isPunctuator "(" then signatureParameters g ctx
  else if t.isWord "new" && next.isPunctuator "(" then
    takeKeyword
    signatureParameters g ctx
  else
    let modifiers ← readModifiers [] g.limit
    require (modifiers.all ["readonly"].contains)
    let t ← current
    let next ← following
    let isAccessor := ["get", "set"].any (describesAccessor t next)
    if isAccessor then takeKeyword
    let t ← current
    require (!(t.isPunctuator "[" && startsIndexDescription t))
    let key ← memberKey g ctx
    let _ ← accept "?"
    require (!isAccessor || (← at? "("))
    return key.mentions ++ (← signatureParameters g ctx)

/-- The members of an interface up to its end. -/
def interfaceElement (g : Grammar) (ctx : Context) : Reader (Option (List Mention)) := do
  if ← accept "\x7d" then return none
  else
    let member ← interfaceMember g ctx
    unless ← accept "," do semicolon
    return some member

/-- An interface from its keyword on. -/
def readInterface (g : Grammar) (ctx : Context) : Reader (List Mention) := do
  expectWord "interface"
  let name ← takeName ctx
  let parents ← readInterfaces g "extends"
  expect "\x7b"
  let members ← collect (interfaceElement g ctx.bracketed) g.limit
  return .bind name :: parents ++ members.flatten

end ReactiveMarkup.Script
