import ReactiveMarkup.Text.Position

/-!
# Diagnostics

A failed compilation yields one diagnostic. It names the kind of failure by a code, says what
happened, where in which file, and what may help. `Fault` lists the causes that reading a component
can have; `Diagnostic.ofFault` words them.

The offset and the position are reported in 32 bits. Here they are natural numbers, so what is
proved of them is about sources of less than 4 GiB.
-/

namespace ReactiveMarkup

/-- A failure as it is reported. -/
structure Diagnostic where
  code : String
  message : String
  file : String
  /-- Byte offset in the source. -/
  offset : Nat
  position : Text.Position
  /-- The literal that was looked for, when that is the failure. -/
  expected : Option String
  hints : List String
deriving DecidableEq, Repr

/-- A unit of embedded script. -/
inductive ScriptUnit
  | program
  | expression
deriving DecidableEq, Repr

/-- Why a component cannot be read. -/
inductive Fault
  /-- A literal does not stand where it must. -/
  | expected (literal : String)
  /-- A character that starts no item of markup. -/
  | stray (found : Char)
  /-- Embedded script that is not well formed. -/
  | rejected (script : ScriptUnit)
deriving DecidableEq, Repr

namespace Fault

/-- The code of a cause. -/
def code : Fault → String
  | .expected _ => "FC-PARSE-001"
  | .stray _ => "FC-PARSE-002"
  | .rejected _ => "FC-SCRIPT-001"

/-- What a cause says about a byte offset. -/
def message (offset : Nat) : Fault → String
  | .expected literal =>
    "Parse error: expected \"" ++ literal ++ "\" at offset " ++ toString offset
  | .stray found =>
    "Parse error: unexpected '" ++ found.toString ++ "' at offset " ++ toString offset
  | .rejected .program => "Invalid script: the text is not a module"
  | .rejected .expression => "Invalid expression syntax: the text does not start with an expression"

/-- The literal that was looked for. -/
def literal? : Fault → Option String
  | .expected literal => some literal
  | _ => none

end Fault

namespace Diagnostic

/-- The hint that every diagnostic of a code carries. -/
def standingHint (code : String) : Option String :=
  if code = "FC-PARSE-001" then
    some "Every element needs a matching closing tag and every `\x7b` a matching `\x7d`."
  else if code = "FC-PARSE-002" then
    some "Markup may only contain elements, text, `\x7bexpression\x7d` and one <script> block."
  else if code = "FC-SCRIPT-001" then
    some "The embedded script must be a valid ES module."
  else none

/-- A diagnostic of a code at a byte offset of a source. -/
def make (code message file : String) (source : List Char) (offset : Nat) : Diagnostic where
  code := code
  message := message
  file := file
  offset := offset
  position := Text.positionAt source offset
  expected := none
  hints := (standingHint code).toList

/-- The diagnostic of a cause. -/
def ofFault (fault : Fault) (file : String) (source : List Char) (offset : Nat) : Diagnostic :=
  { make fault.code (fault.message offset) file source offset with expected := fault.literal? }

/-- Adds a hint after the others. -/
def withHint (diagnostic : Diagnostic) (hint : String) : Diagnostic :=
  { diagnostic with hints := diagnostic.hints ++ [hint] }

/-- A diagnostic in one line. -/
def display (d : Diagnostic) : String :=
  "[" ++ d.code ++ "] " ++ d.message ++ " (" ++ d.file ++ ":" ++ toString d.position.line ++ ":" ++
    toString d.position.column ++ ")"

end Diagnostic

end ReactiveMarkup
