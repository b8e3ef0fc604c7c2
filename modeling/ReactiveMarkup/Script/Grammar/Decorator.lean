import ReactiveMarkup.Script.Phrase

/-!
# Decorators and modifiers

What may stand before a class, a member of a class or a parameter. A decorator is an access or a
call behind an at sign. A modifier is a word that describes what follows it; the same word names a
member when nothing that it could describe follows.
-/

namespace ReactiveMarkup.Script

open Reader

/-! ## Decorators -/

/-- A decorator. Brackets behind it belong to what it decorates. -/
def decoratorItem (g : Grammar) (ctx : Context) : Reader (Option (List Mention)) := do
  if ← accept "@" then return some (← g.access { ctx with decorates := true }).mentions
  else return none

/-- Any number of decorators. -/
def readDecorators (g : Grammar) (ctx : Context) : Reader (List (List Mention)) :=
  collect (decoratorItem g ctx) g.limit

/-! ## Modifiers -/

/-- The words that describe who may use a member. -/
def accessModifiers : List String := ["public", "private", "protected"]

/-- The words that describe a declaration, a member or a parameter. -/
def modifierWords : List String :=
  ["abstract", "accessor", "async", "declare", "default", "export", "in", "out", "override",
   "readonly", "static"] ++ accessModifiers

/-- Whether a token can be the key of a member. -/
def startsKey (t : Token) : Bool :=
  match t.kind with
  | .word _ _ | .string _ _ | .number | .privateName _ => true
  | .punctuator mark => mark == "["
  | _ => false

/-- Whether a token can be described by the modifier before it. -/
def followsModifier (t : Token) : Bool := startsKey t || ["\x7b", "*", "..."].any t.isPunctuator

/-- The modifier that a token is, given the token behind it. Most modifiers stand on the line of
what they describe. -/
def modifier? (t next : Token) : Option String :=
  if followsModifier next then
    modifierWords.find? fun word =>
      t.isWord word && (word == "static" || word == "export" || !next.onNewLine)
  else none

/-- Whether a modifier says again what modifiers before it have said. -/
def repeatsModifier (seen : List String) (word : String) : Bool :=
  seen.contains word || accessModifiers.contains word && seen.any accessModifiers.contains

/-- The modifiers at hand, behind those already seen, at most `fuel` of them. A second `static`, or
one before a brace, is none. -/
def readModifiers (seen : List String) : Nat → Reader (List String)
  | 0 => failure
  | fuel + 1 => do
    let next ← following
    match modifier? (← current) next with
    | none => return seen
    | some word =>
      if word == "static" && (seen.contains word || next.isPunctuator "\x7b") then return seen
      else
        if repeatsModifier seen word then flaw
        takeKeyword
        readModifiers (seen ++ [word]) fuel

/-- Whether a word stands before the key of an accessor. -/
def describesAccessor (t next : Token) (word : String) : Bool := t.isWord word && startsKey next

end ReactiveMarkup.Script
