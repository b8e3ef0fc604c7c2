import ReactiveMarkup.Script.Spelling

/-!
# Reading scripts

A reader takes tokens from a script one after the other and fails if they do not fit. The token at
hand is already read, so a reader can look at it before it decides; it can also look one token
further or try a way and come back.
-/

namespace ReactiveMarkup.Script

/-- How far a script has been read. -/
structure ReaderState where
  /-- The token at hand. -/
  token : Token
  /-- The index at which the token before ended. -/
  last : Nat
  /-- Initial values of object members, as in `{a = 1}`, that still wait for the object to turn out
  as the target of an assignment. -/
  covers : Nat
  /-- Whether the script is ill formed in a way that does not keep it from being read on. -/
  flawed : Bool
  spelled : token.IsSpelled

/-- A way of reading part of a script. -/
abbrev Reader := StateT ReaderState Option

namespace Reader

variable {α : Type}

/-- The token at hand. -/
def current : Reader Token := do return (← get).token

/-- The index at which the last token ended. -/
def lastStop : Reader Nat := do return (← get).last

/-- Goes on to the next token. -/
def advance : Reader Unit :=
  modify fun s =>
    { s with
      token := scanToken s.token.stop
      last := s.token.stop.index
      spelled := isSpelled_scanToken _ }

/-- The token after the one at hand. -/
def following : Reader Token := do return scanToken (← get).token.stop

/-- Reads the token at hand anew. -/
def retake (read : Token → Token) (spelled : ∀ t, t.IsSpelled → (read t).IsSpelled) :
    Reader Unit :=
  modify fun s => { s with token := read s.token, spelled := spelled _ s.spelled }

/-- Fails unless a condition holds. -/
def require (condition : Bool) : Reader Unit := if condition then pure () else failure

/-- Marks the script as ill formed and goes on. -/
def flaw : Reader Unit := modify fun s => { s with flawed := true }

/-- Whether the token at hand is a punctuator. -/
def at? (mark : String) : Reader Bool := do return (← current).isPunctuator mark

/-- Whether the token at hand is a word. -/
def atWord? (word : String) : Reader Bool := do return (← current).isWord word

/-- Takes a punctuator if it is at hand. -/
def accept (mark : String) : Reader Bool := do
  if ← at? mark then advance; return true else return false

/-- Takes the token at hand as a keyword, which must not be written with escapes. -/
def takeKeyword : Reader Unit := do
  if (← current).isEscaped then flaw
  advance

/-- Takes a keyword if it is at hand. -/
def acceptWord (word : String) : Reader Bool := do
  if ← atWord? word then takeKeyword; return true else return false

/-- Takes a punctuator that must be at hand. -/
def expect (mark : String) : Reader Unit := do require (← accept mark)

/-- Takes a keyword that must be at hand. -/
def expectWord (word : String) : Reader Unit := do require (← acceptWord word)

/-- Tries a way of reading, and comes back if it fails. -/
def attempt (reader : Reader α) : Reader (Option α) := fun s =>
  match reader s with
  | some (value, s) => some (some value, s)
  | none => some (none, s)

/-- Notes an initial value that waits for its object to become a target. -/
def addCover : Reader Unit := modify fun s => { s with covers := s.covers + 1 }

/-- Settles some of the waiting initial values. -/
def settleCovers (count : Nat) : Reader Unit :=
  modify fun s => { s with covers := s.covers - count }

/-- Ends a statement: by a semicolon, or where one is understood. -/
def semicolon : Reader Unit := do
  let t ← current
  if t.isPunctuator ";" then advance
  else require (t.onNewLine || t.isPunctuator "\x7d" || t.kind == .ended)

/-- Repeats a reader until it gives nothing, at most `fuel` times. -/
def collect (reader : Reader (Option α)) : Nat → Reader (List α)
  | 0 => failure
  | fuel + 1 => do
    match ← reader with
    | none => return []
    | some value => return value :: (← collect reader fuel)

end Reader

/-- The state at the start of a script. -/
def ReaderState.start (text : List Char) : ReaderState where
  token := scanToken ⟨text, 0⟩
  last := 0
  covers := 0
  flawed := false
  spelled := isSpelled_scanToken _

end ReactiveMarkup.Script
