import ReactiveMarkup.Script.Token

/-!
# Reading tokens

Each class of tokens is scanned by a small machine that looks at one character at a time; the
machines are the functions `…Move`, and the scanners run them over the text. `scanToken` skips
blanks and comments and reads one token. Whether a slash starts a regular expression and whether a
closing brace ends a substitution depends on the grammar, so these tokens have scanners of their
own.
-/

namespace ReactiveMarkup.Script

/-- The value of a hexadecimal digit. -/
def hexValue? (c : Char) : Option Nat :=
  if '0' ≤ c ∧ c ≤ '9' then some (c.toNat - 48)
  else if 'a' ≤ c ∧ c ≤ 'f' then some (c.toNat - 87)
  else if 'A' ≤ c ∧ c ≤ 'F' then some (c.toNat - 55)
  else none

/-- Whether a character is an octal digit. -/
def isOctal (c : Char) : Bool := '0' ≤ c && c ≤ '7'

/-- Whether a character is a binary digit. -/
def isBinary (c : Char) : Bool := c = '0' || c = '1'

/-! ## Blanks and comments -/

/-- Where blanks and comments end. -/
structure Gap where
  stop : Cursor
  /-- Whether a line ended. -/
  newLine : Bool
  /-- Whether every comment is closed. -/
  closed : Bool

/-- What blanks are being skipped. -/
inductive GapMode
  | blank
  /-- A comment up to the end of the line. -/
  | line
  /-- Before the star of a comment. -/
  | opening
  /-- A comment between stars, given whether a star came last. -/
  | block (star : Bool)

/-- Skips blanks and comments. -/
def skipGap : GapMode → Bool → Nat → List Char → Gap
  | .blank, newLine, index, [] => ⟨⟨[], index⟩, newLine, true⟩
  | .line, newLine, index, [] => ⟨⟨[], index⟩, newLine, true⟩
  | .opening, newLine, index, [] => ⟨⟨[], index⟩, newLine, false⟩
  | .block _, newLine, index, [] => ⟨⟨[], index⟩, newLine, false⟩
  | .blank, newLine, index, c :: rest =>
    if isLineEnd c then skipGap .blank true (index + 1) rest
    else if isSpace c then skipGap .blank newLine (index + 1) rest
    else if c = '/' && rest.head? = some '/' then skipGap .line newLine (index + 1) rest
    else if c = '/' && rest.head? = some '*' then skipGap .opening newLine (index + 1) rest
    else ⟨⟨c :: rest, index⟩, newLine, true⟩
  | .line, newLine, index, c :: rest =>
    if isLineEnd c then skipGap .blank true (index + 1) rest
    else skipGap .line newLine (index + 1) rest
  | .opening, newLine, index, _ :: rest => skipGap (.block false) newLine (index + 1) rest
  | .block star, newLine, index, c :: rest =>
    if star && c = '/' then skipGap .blank newLine (index + 1) rest
    else skipGap (.block (c = '*')) (newLine || isLineEnd c) (index + 1) rest

/-! ## Escapes -/

/-- The state inside an escape after its backslash. -/
inductive EscapeMode
  /-- After the backslash. -/
  | backslash
  /-- Some more hexadecimal digits must follow. -/
  | digits (count value : Nat)
  /-- After `\u`. -/
  | unicode
  /-- Between the braces of `\u{…}`, given whether there is a digit already. -/
  | braced (started : Bool) (value : Nat)
  /-- After `\0`, which no digit may follow in a template literal. -/
  | zero
  /-- Up to some more octal digits may follow. -/
  | octal (count value : Nat)
  /-- After a carriage return, which ends a line together with a line feed behind it. -/
  | carriageReturn

/-- What a character does inside an escape. -/
inductive EscapeMove
  /-- The escape goes on. -/
  | next (mode : EscapeMode)
  /-- The escape ends with this character and stands for a code point, if it stands for one. -/
  | done (code : Option Nat)
  /-- The escape ended before this character and stands for a code point, if it stands for one. -/
  | before (code : Option Nat)
  /-- The escape is ill formed. -/
  | wrong

/-- The last digit of an escape with a fixed number of digits, or one before. -/
def digitMove (count value : Nat) (c : Char) : EscapeMove :=
  match hexValue? c with
  | none => .wrong
  | some digit =>
    if count ≤ 1 then .done (some (value * 16 + digit))
    else .next (.digits (count - 1) (value * 16 + digit))

/-- A character of an escape that starts with `\u`, after the `u`. -/
def unicodeMove : EscapeMode → Char → EscapeMove
  | .unicode, c => if c = '{' then .next (.braced false 0) else digitMove 4 0 c
  | .digits count value, c => digitMove count value c
  | .braced started value, c =>
    if c = '}' then if started then .done (some value) else .wrong
    else
      match hexValue? c with
      | none => .wrong
      | some digit =>
        if value * 16 + digit ≤ 0x10FFFF then .next (.braced true (value * 16 + digit))
        else .wrong
  | _, _ => .wrong

/-- The first digit of an octal escape. One up to three allows two more, any other one more. -/
def firstOctal (c : Char) : EscapeMode := .octal (if c ≤ '3' then 2 else 1) (c.toNat - 48)

/-- A further character of an octal escape, or the first one behind it. -/
def octalMove (count value : Nat) (c : Char) : EscapeMove :=
  if isOctal c then
    if count ≤ 1 then .done (some (value * 8 + (c.toNat - 48)))
    else .next (.octal (count - 1) (value * 8 + (c.toNat - 48)))
  else .before (some value)

/-- A character of an escape in a quoted literal. -/
def quotedEscapeMove : EscapeMode → Char → EscapeMove
  | .backslash, c =>
    if c = 'x' then .next (.digits 2 0)
    else if c = 'u' then .next .unicode
    else if c = '\r' then .next .carriageReturn
    else if isOctal c then .next (firstOctal c)
    else .done none
  | .octal count value, c => octalMove count value c
  | .carriageReturn, c => if c = '\n' then .done none else .before none
  | mode, c => unicodeMove mode c

/-- A character of an escape in a template literal, where octal escapes are ill formed. -/
def templateEscapeMove : EscapeMode → Char → EscapeMove
  | .backslash, c =>
    if c = 'x' then .next (.digits 2 0)
    else if c = 'u' then .next .unicode
    else if c = '0' then .next .zero
    else if c.isDigit then .wrong
    else .done none
  | .zero, c => if c.isDigit then .wrong else .before none
  | mode, c => unicodeMove mode c

/-! ## Names -/

/-- A name that has been read. -/
structure NameScan where
  text : List Char
  escaped : Bool
  stop : Cursor

/-- Whether a character may stand at this place of a name. -/
def fitsName (first : Bool) (c : Char) : Bool :=
  if first then Text.isIdentifierStart c else Text.isIdentifierPart c

/-- The end of a name; a name has at least one character. -/
def endName (taken : List Char) (escaped : Bool) (stop : Cursor) : Option NameScan :=
  if taken.isEmpty then none else some ⟨taken.reverse, escaped, stop⟩

/-- Reads a name; the characters taken so far are in reverse order. -/
def scanName : Option EscapeMode → List Char → Bool → Nat → List Char → Option NameScan
  | none, taken, escaped, index, [] => endName taken escaped ⟨[], index⟩
  | some _, _, _, _, [] => none
  | none, taken, escaped, index, c :: rest =>
    if c = '\\' then scanName (some .backslash) taken true (index + 1) rest
    else if fitsName taken.isEmpty c then scanName none (c :: taken) escaped (index + 1) rest
    else endName taken escaped ⟨c :: rest, index⟩
  | some .backslash, taken, escaped, index, c :: rest =>
    if c = 'u' then scanName (some .unicode) taken escaped (index + 1) rest else none
  | some mode, taken, escaped, index, c :: rest =>
    match unicodeMove mode c with
    | .next mode => scanName (some mode) taken escaped (index + 1) rest
    | .done (some code) =>
      if fitsName taken.isEmpty (Char.ofNat code) then
        scanName none (Char.ofNat code :: taken) escaped (index + 1) rest
      else none
    | _ => none

/-! ## Quoted literals -/

/-- A quoted literal that has been read: the code points that it stands for. -/
structure QuotedScan where
  points : List Nat
  stop : Cursor

/-- Whether a code point is the first half of a pair that stands for one character. -/
def isHighSurrogate (n : Nat) : Bool := 0xD800 ≤ n && n ≤ 0xDBFF

/-- Whether a code point is the second half of a pair that stands for one character. -/
def isLowSurrogate (n : Nat) : Bool := 0xDC00 ≤ n && n ≤ 0xDFFF

/-- The character of a code point that is no half of a pair. -/
def wholeCharacter (n : Nat) : Char :=
  if isHighSurrogate n || isLowSurrogate n then '\uFFFD' else Char.ofNat n

/-- The characters that code points stand for. -/
def joinSurrogates : List Nat → List Char
  | [] => []
  | [n] => [wholeCharacter n]
  | high :: low :: rest =>
    if isHighSurrogate high && isLowSurrogate low then
      Char.ofNat (0x10000 + (high - 0xD800) * 0x400 + (low - 0xDC00)) :: joinSurrogates rest
    else wholeCharacter high :: joinSurrogates (low :: rest)

/-- Whether each half of a pair among some code points has its other half. -/
def surrogatesPaired : List Nat → Bool
  | [] => true
  | [n] => !isHighSurrogate n && !isLowSurrogate n
  | high :: low :: rest =>
    if isHighSurrogate high && isLowSurrogate low then surrogatesPaired rest
    else !isHighSurrogate high && !isLowSurrogate high && surrogatesPaired (low :: rest)

/-- The characters that a backslash and one character stand for. A line that ends behind a
backslash goes on as if it did not end. -/
def shortEscape (c : Char) : List Char :=
  if c = 'n' then ['\n']
  else if c = 't' then ['\t']
  else if c = 'r' then ['\r']
  else if c = 'b' then ['\x08']
  else if c = 'f' then ['\x0c']
  else if c = 'v' then ['\x0b']
  else if isLineEnd c then []
  else [c]

/-- The code points that an escape stands for, given the one that it spells out, if it spells out
one, and its last character. -/
def escapePoints (code : Option Nat) (c : Char) : List Nat :=
  match code with
  | some code => [code]
  | none => (shortEscape c).map Char.toNat

/-- What a character does in a quoted literal. -/
inductive QuotedMove
  /-- The literal goes on, with some more code points. -/
  | next (mode : Option EscapeMode) (points : List Nat)
  /-- The literal ends, with some more code points. -/
  | closed (points : List Nat)
  /-- The literal is ill formed. -/
  | wrong

/-- What a character does outside escapes, behind some code points. -/
def quotedTextMove (quote : Char) (points : List Nat) (c : Char) : QuotedMove :=
  if c = quote then .closed points
  else if c = '\\' then .next (some .backslash) points
  else if c = '\n' || c = '\r' then .wrong
  else .next none (points ++ [c.toNat])

/-- What a character does in a quoted literal. -/
def quotedMove (quote : Char) : Option EscapeMode → Char → QuotedMove
  | none, c => quotedTextMove quote [] c
  | some mode, c =>
    match quotedEscapeMove mode c with
    | .next mode => .next (some mode) []
    | .done code => .next none (escapePoints code c)
    | .before code => quotedTextMove quote code.toList c
    | .wrong => .wrong

/-- Reads a quoted literal, after its first quote; the code points taken so far are in reverse
order. -/
def scanQuoted (quote : Char) :
    Option EscapeMode → List Nat → Nat → List Char → Option QuotedScan
  | _, _, _, [] => none
  | mode, taken, index, c :: rest =>
    match quotedMove quote mode c with
    | .next mode points => scanQuoted quote mode (points.reverse ++ taken) (index + 1) rest
    | .closed points => some ⟨taken.reverse ++ points, ⟨rest, index + 1⟩⟩
    | .wrong => none

/-! ## Template literals -/

/-- The state inside the text of a template literal. -/
inductive TemplateMode
  | text
  /-- After a dollar sign. -/
  | dollar
  | escape (mode : EscapeMode)
  /-- After the end of the literal. -/
  | closed
  /-- After the start of a substitution. -/
  | substitution

/-- What a character does outside escapes. -/
def templateTextMove (afterDollar : Bool) (c : Char) : TemplateMode :=
  if c = '`' then .closed
  else if c = '\\' then .escape .backslash
  else if c = '$' then .dollar
  else if afterDollar && c = '{' then .substitution
  else .text

/-- What a character does in a template literal, and whether it shows an ill-formed escape. -/
def templateMove : TemplateMode → Char → TemplateMode × Bool
  | .text, c => (templateTextMove false c, true)
  | .dollar, c => (templateTextMove true c, true)
  | .escape mode, c =>
    match templateEscapeMove mode c with
    | .next mode => (.escape mode, true)
    | .done _ => (.text, true)
    | .before _ => (templateTextMove false c, true)
    | .wrong =>
      match mode with
      | .backslash => (.text, false)
      | _ => (templateTextMove false c, false)
  | mode, _ => (mode, true)

/-- A piece of a template literal that has been read. -/
structure TemplateScan where
  closed : Bool
  wellFormed : Bool
  stop : Cursor

/-- Reads a template literal up to its end or to a substitution. -/
def scanTemplate : TemplateMode → Bool → Nat → List Char → Option TemplateScan
  | _, _, _, [] => none
  | mode, wellFormed, index, c :: rest =>
    match templateMove mode c with
    | (.closed, fine) => some ⟨true, wellFormed && fine, ⟨rest, index + 1⟩⟩
    | (.substitution, fine) => some ⟨false, wellFormed && fine, ⟨rest, index + 1⟩⟩
    | (mode, fine) => scanTemplate mode (wellFormed && fine) (index + 1) rest

/-! ## Regular expressions -/

/-- The state inside the body of a regular expression. -/
structure PatternMode where
  /-- Inside brackets. -/
  inClass : Bool
  /-- After a backslash. -/
  escaped : Bool

/-- Finds the end of the body of a regular expression, after its first slash. -/
def scanPattern : PatternMode → Nat → List Char → Option Cursor
  | _, _, [] => none
  | mode, index, c :: rest =>
    if isLineEnd c then none
    else if mode.escaped then scanPattern ⟨mode.inClass, false⟩ (index + 1) rest
    else if c = '\\' then scanPattern ⟨mode.inClass, true⟩ (index + 1) rest
    else if c = '[' then scanPattern ⟨true, false⟩ (index + 1) rest
    else if c = ']' then scanPattern ⟨false, false⟩ (index + 1) rest
    else if c = '/' && !mode.inClass then some ⟨rest, index + 1⟩
    else scanPattern mode (index + 1) rest

/-- Whether a character behind the body of a regular expression is taken for a flag. -/
def isFlagCharacter (c : Char) : Bool := c.isAlphanum || c = '$' || c = '_'

/-- The flags of a regular expression: known ones, each once. -/
def flagsFit : List Char → Bool
  | [] => true
  | c :: rest => "dgimsuvy".toList.contains c && !rest.contains c && flagsFit rest

/-- Reads a regular expression, after its first slash. -/
def scanRegularExpression (start : Cursor) : Option Cursor :=
  match scanPattern ⟨false, false⟩ start.index start.rest with
  | none => none
  | some body =>
    let flags := body.rest.takeWhile isFlagCharacter
    if flagsFit flags then some (body.skip flags.length) else none

/-! ## Numbers -/

/-- Whether digits have separators only between digits. -/
def wellSeparated : List Char → Bool
  | [] => true
  | ['_'] => false
  | '_' :: '_' :: _ => false
  | _ :: rest => wellSeparated rest

/-- A run of digits with separators: how many characters, if it is well formed. -/
def digitRun? (isDigit : Char → Bool) (text : List Char) : Option Nat :=
  let run := text.takeWhile fun c => isDigit c || c = '_'
  if run.head? ≠ some '_' && wellSeparated run then some run.length else none

/-- A run of at least one digit. -/
def digitRun1? (isDigit : Char → Bool) (text : List Char) : Option Nat :=
  match digitRun? isDigit text with
  | some 0 => none
  | length => length

/-- The length of an exponent; zero if there is none. -/
def exponent? (text : List Char) : Option Nat :=
  match text with
  | c :: rest =>
    if c = 'e' || c = 'E' then
      match rest with
      | sign :: digits =>
        if sign = '+' || sign = '-' then (digitRun1? Char.isDigit digits).map (· + 2)
        else (digitRun1? Char.isDigit rest).map (· + 1)
      | [] => none
    else some 0
  | [] => some 0

/-- The length of a fraction and an exponent. -/
def fraction? (text : List Char) : Option Nat :=
  match text with
  | '.' :: rest => do
    let digits ← digitRun? Char.isDigit rest
    let exponent ← exponent? (rest.drop digits)
    return 1 + digits + exponent
  | text => exponent? text

/-- A number that has been read. -/
structure NumberScan where
  length : Nat
  /-- Whether a name may follow directly. -/
  isOpen : Bool

/-- A number that no name may follow directly. -/
def NumberScan.sealed (length : Nat) : NumberScan := ⟨length, false⟩

/-- A number of a given length up to an exponent, which a name may follow directly. -/
def openExponent? (length : Nat) (text : List Char) : Option NumberScan :=
  (exponent? text).map fun more => ⟨length + more, true⟩

/-- A number with a radix mark, and with the suffix of a big integer if it has one. -/
def radixNumber? (isDigit : Char → Bool) (digits : List Char) : Option NumberScan := do
  let length ← digitRun1? isDigit digits
  return .sealed (if (digits.drop length).head? = some 'n' then length + 3 else length + 2)

/-- A number that starts with a zero and another digit. It is a decimal one if it has a digit that
is not octal, and then it may have a fraction or an exponent with a small mark. -/
def zeroLedNumber? (text : List Char) : Option NumberScan :=
  let digits := text.takeWhile Char.isDigit
  let rest := text.drop digits.length
  if digits.all isOctal then some (.sealed digits.length)
  else if rest.head? = some 'e' then openExponent? digits.length rest
  else if rest.head? = some '.' then
    (fraction? rest).map fun more => .sealed (digits.length + more)
  else some (.sealed digits.length)

/-- A decimal number. -/
def decimalNumber? (text : List Char) : Option NumberScan := do
  let digits ← digitRun? Char.isDigit text
  let rest := text.drop digits
  if rest.head? = some 'n' && 0 < digits then return .sealed (digits + 1)
  let more ← fraction? rest
  return .sealed (digits + more)

/-- The number that a text starts with. -/
def number? (text : List Char) : Option NumberScan :=
  match text with
  | '0' :: c :: rest =>
    if c = 'x' || c = 'X' then radixNumber? (fun d => (hexValue? d).isSome) rest
    else if c = 'o' || c = 'O' then radixNumber? isOctal rest
    else if c = 'b' || c = 'B' then radixNumber? isBinary rest
    else if c = 'e' || c = 'E' then openExponent? 1 (c :: rest)
    else if c.isDigit then zeroLedNumber? text
    else if c = '_' then none
    else decimalNumber? text
  | text => decimalNumber? text

/-- Reads a number. Neither a name nor a digit may follow it directly, except that a name may follow
the exponent of a number whose digits start with a zero. -/
def scanNumber (start : Cursor) : Option Cursor :=
  match number? start.rest with
  | none => none
  | some scan =>
    match start.rest.drop scan.length with
    | c :: _ =>
      if Text.isIdentifierPart c && !scan.isOpen then none else some (start.skip scan.length)
    | [] => some (start.skip scan.length)

/-! ## Punctuators -/

/-- The punctuators, longer ones before those that they start with. -/
def punctuators : List String :=
  [">>>=", "...", "===", "!==", "**=", "<<=", ">>=", ">>>", "&&=", "||=", "??=", "=>", "==", "!=",
   "<=", ">=", "&&", "||", "??", "?.", "++", "--", "+=", "-=", "*=", "/=", "%=", "&=", "|=", "^=",
   "<<", ">>", "**", "\x7b", "\x7d", "(", ")", "[", "]", ";", ",", "<", ">", "+", "-", "*", "/",
   "%", "&", "|", "^", "!", "~", "?", ":", "=", ".", "@"]

/-- Whether a text starts with a punctuator. The mark of an optional access must not be followed by
a digit. -/
def startsWithPunctuator (text : List Char) (mark : String) : Bool :=
  mark.toList.isPrefixOf text &&
    !(mark = "?." && ((text.drop 2).head?.any Char.isDigit))

/-- The punctuator that a text starts with. -/
def punctuator? (text : List Char) : Option String :=
  punctuators.find? (startsWithPunctuator text)

/-! ## Tokens -/

/-- Reads the token that starts at a place. -/
def scanAt (start : Cursor) : TokenKind × Cursor :=
  match start.rest with
  | [] => (.ended, start)
  | c :: rest =>
    if c = '\\' || Text.isIdentifierStart c then
      match scanName none [] false start.index start.rest with
      | some name => (.word (String.ofList name.text) name.escaped, name.stop)
      | none => (.invalid, start)
    else if c = '#' then
      match scanName none [] false (start.index + 1) rest with
      | some name => (.privateName (String.ofList name.text), name.stop)
      | none => (.invalid, start)
    else if c = '"' || c = '\'' then
      match scanQuoted c none [] (start.index + 1) rest with
      | some scan =>
        (.string (String.ofList (joinSurrogates scan.points)) (surrogatesPaired scan.points),
          scan.stop)
      | none => (.invalid, start)
    else if c = '`' then
      match scanTemplate .text true (start.index + 1) rest with
      | some scan => (.template scan.closed scan.wellFormed, scan.stop)
      | none => (.invalid, start)
    else if c.isDigit || c = '.' && rest.head?.any Char.isDigit then
      match scanNumber start with
      | some stop => (.number, stop)
      | none => (.invalid, start)
    else
      match punctuator? start.rest with
      | some mark => (.punctuator mark, start.skip mark.length)
      | none => (.invalid, start)

/-- Reads the next token from a place on. -/
def scanToken (place : Cursor) : Token :=
  let gap := skipGap .blank false place.index place.rest
  if gap.closed then
    let scan := scanAt gap.stop
    ⟨scan.1, gap.stop, scan.2, gap.newLine⟩
  else ⟨.invalid, gap.stop, gap.stop, gap.newLine⟩

/-- Reads the token that starts with a closing angle bracket as that bracket alone. -/
def Token.asClosingAngle (t : Token) : Token :=
  if t.start.rest.head? = some '>' then
    { t with kind := .punctuator ">", stop := t.start.skip 1 }
  else t

/-- Reads the token that starts with a slash as a regular expression. -/
def Token.asRegularExpression (t : Token) : Token :=
  match scanRegularExpression (t.start.skip 1) with
  | some stop => { t with kind := .regularExpression, stop := stop }
  | none => { t with kind := .invalid }

/-- Reads the token that starts with a closing brace as the next piece of a template literal. -/
def Token.asTemplate (t : Token) : Token :=
  match scanTemplate .text true (t.start.index + 1) (t.start.rest.drop 1) with
  | some scan => { t with kind := .template scan.closed scan.wellFormed, stop := scan.stop }
  | none => { t with kind := .invalid }

end ReactiveMarkup.Script
