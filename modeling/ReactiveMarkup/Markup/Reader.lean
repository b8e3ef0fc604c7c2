import ReactiveMarkup.Diagnostic
import ReactiveMarkup.Markup.Braces
import ReactiveMarkup.Markup.Fragment
import ReactiveMarkup.Text.Blank

/-!
# Reading markup

Markup is read from left to right. A script block, an element, an interpolation or a text is taken
from the front, until the text ends or the end tag of the element at hand follows. The scripts
inside are given to a `ScriptReader`, which may be any.
-/

namespace ReactiveMarkup.Markup

open Script (Expression Statement)

/-- How embedded scripts are read: a text and the next free node id give a tree and the node id that
is free then, or the text is rejected. -/
structure ScriptReader where
  program : List Char → Nat → Option (List Statement × Nat)
  expression : List Char → Nat → Option (Expression × Nat)

/-- An element whose start tag has been read: its name and the offset of its start. -/
structure OpenElement where
  name : String
  offset : Nat
deriving DecidableEq, Repr

/-- Why and where markup cannot be read. -/
structure Failure where
  fault : Fault
  /-- Byte offset in the source. -/
  offset : Nat
  /-- The open elements whose end tag is missing, innermost first. -/
  unclosed : List OpenElement

/-- How far markup has been read. -/
structure ReaderState where
  /-- What follows. -/
  rest : List Char
  /-- How many bytes come before. -/
  offset : Nat
  /-- The next free node id. -/
  nextId : Nat
  /-- The script of the last script block. -/
  script : Option (List Statement)

/-- A way of reading part of a markup. -/
abbrev Reader := StateT ReaderState (Except Failure)

namespace Reader

variable {α : Type}

/-- Fails at an offset. -/
def failAt (fault : Fault) (offset : Nat) : Reader α := throw ⟨fault, offset, []⟩

/-- Fails because a literal is missing at an offset. -/
def missing (literal : String) (offset : Nat) : Reader α := failAt (.expected literal) offset

/-- The offset of the end of the source. -/
def endOffset : Reader Nat := do
  let s ← get
  return s.offset + Text.byteSize s.rest

/-- Whether a literal follows. -/
def follows (literal : String) : Reader Bool := do
  return literal.toList.isPrefixOf (← get).rest

/-- Goes on behind `taken`, with `rest` left. -/
def moveTo (taken rest : List Char) : Reader Unit :=
  modify fun s => { s with rest := rest, offset := s.offset + Text.byteSize taken }

/-- Takes a literal that must follow. -/
def eat (literal : String) : Reader Unit := do
  let s ← get
  match Text.stripLead? literal.toList s.rest with
  | some rest => moveTo literal.toList rest
  | none => missing literal s.offset

/-- Takes the characters that fulfil a condition. -/
def takeWhile (condition : Char → Bool) : Reader (List Char) := do
  let s ← get
  let taken := s.rest.takeWhile condition
  moveTo taken (s.rest.dropWhile condition)
  return taken

/-- Skips white space. -/
def skipBlank : Reader Unit := do
  let _ ← takeWhile Text.isBlank

/-- Notes that an element is open while something is read, in case its end tag is missing. -/
def inside (element : OpenElement) (reader : Reader α) : Reader α := fun s =>
  match reader s with
  | .ok result => .ok result
  | .error failure =>
    if failure.fault = .expected ("</" ++ element.name ++ ">") then
      .error { failure with unclosed := failure.unclosed ++ [element] }
    else .error failure

end Reader

open Reader

/-- Whether a character may stand in the name of an element after its start. -/
def isTagChar (c : Char) : Bool := c.isAlphanum || c = '-'

/-- Whether a character may stand in the name of an attribute. -/
def isAttributeChar (c : Char) : Bool := !Text.isBlank c && !"=>/\x7b\x7d".toList.contains c

/-- Whether a character may stand in a text. -/
def isTextChar (c : Char) : Bool := c ≠ '<' && c ≠ '{'

/-- The name of the element that starts with the given text, if one does. -/
def tagName? : List Char → Option (List Char)
  | '<' :: c :: rest => if c.isAlpha then some (c :: rest.takeWhile isTagChar) else none
  | _ => none

variable (scripts : ScriptReader)

/-- An expression, behind its opening brace, up to its closing brace. -/
def readInterpolated : Reader Expression := do
  let s ← get
  match splitBraced s.rest with
  | none => missing "\x7d" (← endOffset)
  | some (code, _) =>
    match scripts.expression code s.nextId with
    | none => failAt (.rejected .expression) s.offset
    | some (expression, next) =>
      set { s with
        rest := s.rest.drop code.length, offset := s.offset + Text.byteSize code, nextId := next }
      return expression

/-- An attribute. -/
def readAttribute : Reader Attribute := do
  let offset := (← get).offset
  let name ← takeWhile isAttributeChar
  if name.isEmpty then missing ">" offset
  else
    eat "="
    eat "\x7b"
    let value ← readInterpolated scripts
    eat "\x7d"
    return ⟨String.ofList name, value⟩

/-- The attributes of an element up to the end of its start tag, at most `fuel` of them. -/
def readAttributes : Nat → Reader (List Attribute)
  | 0 => return []
  | fuel + 1 => do
    skipBlank
    if (← get).rest.isEmpty || (← follows ">") then return []
    else
      let first ← readAttribute scripts
      return first :: (← readAttributes fuel)

/-- A script block. -/
def readScript : Reader Unit := do
  eat "<script>"
  let s ← get
  match Text.splitAt? "</script>".toList s.rest with
  | none => missing "</script>" (← endOffset)
  | some (code, _) =>
    match scripts.program code s.nextId with
    | none => failAt (.rejected .program) s.offset
    | some (program, next) =>
      set ({
        rest := s.rest.drop code.length
        offset := s.offset + Text.byteSize code
        nextId := next
        script := some program } : ReaderState)
      eat "</script>"

/-- An interpolated expression with its braces. -/
def readExpression : Reader Fragment := do
  eat "\x7b"
  let expression ← readInterpolated scripts
  eat "\x7d"
  return .expression expression

/-- A text; there is none if it holds only white space. -/
def readText : Reader (Option Fragment) := do
  let text ← takeWhile isTextChar
  return if Text.allBlank text then none else some (.text (String.ofList text))

/-- Fails where nothing of markup starts, given the end tag that may follow. -/
def failUnreadable (endTag : Option String) : Reader (Option Fragment) := do
  let s ← get
  match endTag with
  | some literal => missing literal s.offset
  | none => failAt (.stray (s.rest.headD '\x00')) s.offset

mutual

/-- The fragments up to the end of the source or up to an end tag. -/
def readFragments (fuel : Nat) (endTag : Option String) : Reader (List Fragment) :=
  match fuel with
  | 0 => return []
  | fuel + 1 => do
    let isDone ← match endTag with
      | some literal => follows literal
      | none => pure false
    if (← get).rest.isEmpty || isDone then return []
    else
      let first ← readFragment fuel endTag
      let others ← readFragments fuel endTag
      return first.toList ++ others

/-- One fragment. Script blocks and white space are taken without giving one. -/
def readFragment (fuel : Nat) (endTag : Option String) : Reader (Option Fragment) :=
  match fuel with
  | 0 => return none
  | fuel + 1 => do
    let s ← get
    if ← follows "<script>" then
      readScript scripts
      return none
    else
      match tagName? s.rest with
      | some name => some <$> readElement fuel (String.ofList name)
      | none =>
        if ← follows "\x7b" then some <$> readExpression scripts
        else if s.rest.head?.any isTextChar then readText
        else failUnreadable endTag

/-- An element with the given name. -/
def readElement (fuel : Nat) (name : String) : Reader Fragment :=
  match fuel with
  | 0 => return .text ""
  | fuel + 1 => do
    let offset := (← get).offset
    eat ("<" ++ name)
    let attributes ← readAttributes scripts ((← get).rest.length + 1)
    eat ">"
    let endTag := "</" ++ name ++ ">"
    let children ← inside ⟨name, offset⟩ (readFragments fuel (some endTag))
    inside ⟨name, offset⟩ (eat endTag)
    return .element name attributes children offset

end

/-- Reads a component, given the fuel. -/
def readComponent (source : List Char) : Except Failure Component :=
  match readFragments scripts (3 * source.length + 3) none ⟨source, 0, 0, none⟩ with
  | .ok (html, s) => .ok ⟨html, s.script.getD []⟩
  | .error failure => .error failure

/-- The hint for an element whose end tag is missing. -/
def OpenElement.hint (source : List Char) (element : OpenElement) : String :=
  let position := Text.positionAt source element.offset
  "<" ++ element.name ++ "> opened at " ++ toString position.line ++ ":" ++
    toString position.column ++ " is never closed"

/-- The diagnostic of a failure. -/
def Failure.diagnostic (file : String) (source : List Char) (failure : Failure) : Diagnostic :=
  failure.unclosed.foldl (fun d element => d.withHint (element.hint source))
    (.ofFault failure.fault file source failure.offset)

/-- An expression in markup with the offset of its closing brace and the next free node id. -/
structure Interpolated where
  expression : Expression
  stop : Nat
  nextId : Nat

/-- The text from a byte offset on, if an opening brace stands just before it. -/
def behindBrace? (source : List Char) (offset : Nat) : Option (List Char) :=
  match Text.dropBytes? (offset - 1) source with
  | some ('{' :: rest) => some rest
  | _ => none

/-- Reads the expression that starts at a byte offset, just behind an opening brace. At offset zero
the brace itself counts as the start of the expression. -/
def readExpressionAt (source : List Char) (offset nextId : Nat) : Except Failure Interpolated :=
  match (behindBrace? source offset).bind splitBraced with
  | none => .error ⟨.expected "\x7d", Text.byteSize source, []⟩
  | some (inner, _) =>
    let code := if offset = 0 then '{' :: inner else inner
    match scripts.expression code nextId with
    | none => .error ⟨.rejected .expression, offset, []⟩
    | some (expression, next) => .ok ⟨expression, offset + Text.byteSize code, next⟩

end ReactiveMarkup.Markup
