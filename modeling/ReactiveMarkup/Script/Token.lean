import ReactiveMarkup.Text.Identifier

/-!
# Tokens of scripts

A script is read token by token. A token remembers where its text starts and ends, and whether a
line ended between it and the token before.
-/

namespace ReactiveMarkup.Script

/-- A place in a script: what follows it, and how many characters come before. -/
structure Cursor where
  rest : List Char
  index : Nat
deriving DecidableEq, Repr

namespace Cursor

/-- The place a number of characters further on. -/
def skip (c : Cursor) (n : Nat) : Cursor := ⟨c.rest.drop n, c.index + n⟩

/-- The text from a place up to the character of the given index. -/
def slice (c : Cursor) (stop : Nat) : String := String.ofList (c.rest.take (stop - c.index))

end Cursor

/-- What a token is. -/
inductive TokenKind
  /-- A name or keyword, with its escapes decoded. -/
  | word (text : String) (escaped : Bool)
  /-- A name after a number sign. -/
  | privateName (text : String)
  | number
  /-- A quoted literal, with its escapes decoded, and whether they spell out characters only. -/
  | string (text : String) (wellFormed : Bool)
  | punctuator (text : String)
  /-- A piece of a template literal up to its end or to a substitution. -/
  | template (closed wellFormed : Bool)
  | regularExpression
  /-- No token can be read. -/
  | invalid
  /-- The end of the script. -/
  | ended
deriving DecidableEq, Repr

/-- A token in its place. -/
structure Token where
  kind : TokenKind
  start : Cursor
  stop : Cursor
  /-- Whether a line ended since the token before. -/
  onNewLine : Bool
deriving DecidableEq, Repr

namespace Token

/-- Whether a token is the given punctuator. -/
def isPunctuator (t : Token) (text : String) : Bool := t.kind == .punctuator text

/-- Whether a token is the given word, with or without escapes. -/
def isWord (t : Token) (text : String) : Bool :=
  match t.kind with
  | .word word _ => word == text
  | _ => false

/-- Whether a token is a private name. -/
def isPrivateName (t : Token) : Bool :=
  match t.kind with
  | .privateName _ => true
  | _ => false

/-- Whether a token is a word that is written with escapes. Such a word names things, and is never
a keyword. -/
def isEscaped (t : Token) : Bool :=
  match t.kind with
  | .word _ escaped => escaped
  | _ => false

end Token

/-- The words that are never identifiers. -/
def reservedWords : List String :=
  ["break", "case", "catch", "class", "const", "continue", "debugger", "default", "delete", "do",
   "else", "enum", "export", "extends", "false", "finally", "for", "function", "if", "import",
   "in", "instanceof", "new", "null", "return", "super", "switch", "this", "throw", "true", "try",
   "typeof", "var", "void", "while", "with"]

/-- The words that are keywords in some places and may be identifiers elsewhere. -/
def contextualWords : List String :=
  ["abstract", "accessor", "any", "as", "assert", "asserts", "async", "await", "bigint", "boolean",
   "constructor", "declare", "defer", "from", "get", "global", "implements", "infer", "interface",
   "intrinsic", "is", "keyof", "let", "meta", "module", "namespace", "never", "number", "object",
   "of", "out", "override", "package", "private", "protected", "public", "readonly", "require",
   "satisfies", "set", "source", "static", "string", "symbol", "target", "type", "undefined",
   "unique", "unknown", "using", "yield"]

/-- Whether a word is never an identifier. -/
def isReserved (word : String) : Bool := reservedWords.contains word

/-- Whether a token is a word that may name a variable somewhere. -/
def Token.isBindingWord (t : Token) : Bool :=
  match t.kind with
  | .word text _ => !isReserved text
  | _ => false

/-- Whether a character ends a line. -/
def isLineEnd (c : Char) : Bool := c = '\n' || c = '\r' || c = '\u2028' || c = '\u2029'

/-- The ranges of characters, other than line ends, that may separate tokens. -/
def spaceRanges : List (Nat × Nat) :=
  [(0x0009, 0x0009), (0x000B, 0x000C), (0x0020, 0x0020), (0x0085, 0x0085), (0x00A0, 0x00A0),
   (0x1680, 0x1680), (0x2000, 0x200B), (0x202F, 0x202F), (0x205F, 0x205F), (0x3000, 0x3000),
   (0xFEFF, 0xFEFF)]

/-- Whether a character, other than a line end, may separate tokens. -/
def isSpace (c : Char) : Bool := Text.inRanges c.toNat spaceRanges

end ReactiveMarkup.Script
