import ReactiveMarkup.Markup.Braces
import ReactiveMarkup.Proofs.TokenReach

/-!
# Tokens of code

A text of code is read token by token (`Reads`): a brace that closes a substitution goes on with
the template literal around it, so the open braces are part of the state. Regular expressions are
not read, as a slash is taken for an operator. What a token *means* (`Item.meaning`) is its
characters, except that a string literal means what it spells out and that line ends in a template
literal all count as line feeds.
-/

namespace ReactiveMarkup.Script

open Markup (OpenBrace)

/-! ## Items -/

/-- What stands in a text before its end `rest`. -/
def textBefore (rest text : List Char) : List Char := text.take (text.length - rest.length)

@[simp] theorem textBefore_append (piece rest : List Char) :
    textBefore rest (piece ++ rest) = piece := by
  simp [textBefore]

/-- A token with what stands in front of it. -/
structure Item where
  /-- The blanks and comments in front of the token. -/
  gap : List Char
  kind : TokenKind
  /-- The characters of the token. -/
  source : List Char
deriving DecidableEq, Repr

/-- The token that a text starts with, behind blanks and comments. The open braces are given
innermost first; a brace that closes a substitution goes on with the template literal. -/
def tokenIn (opened : List OpenBrace) (text : List Char) : Token :=
  let t := scanToken ⟨text, 0⟩
  if opened.head? = some .substitution && t.isPunctuator "\x7d" then t.asTemplate else t

/-- The first token of a text, and what follows it. -/
def firstItem (opened : List OpenBrace) (text : List Char) : Item × List Char :=
  let t := tokenIn opened text
  (⟨textBefore t.start.rest text, t.kind, textBefore t.stop.rest t.start.rest⟩, t.stop.rest)

/-- The braces that are open behind a token of a kind with a first character. -/
def openedBehind (kind : TokenKind) (first : Option Char) (opened : List OpenBrace) :
    List OpenBrace :=
  let outer := if first = some '}' then opened.tail else opened
  match kind with
  | .template false _ => .substitution :: outer
  | .punctuator mark => if mark = "\x7b" then .plain :: outer else outer
  | _ => outer

/-- The braces that are open behind an item. -/
def Item.openedBehind (item : Item) (opened : List OpenBrace) : List OpenBrace :=
  Script.openedBehind item.kind item.source.head? opened

/-- The items of a text up to its end, given the open braces. -/
inductive Reads : List OpenBrace → List Char → List Item → Prop
  | ended {opened : List OpenBrace} {text : List Char}
      (ends : (firstItem opened text).1.kind = .ended) :
      Reads opened text [(firstItem opened text).1]
  | token {opened : List OpenBrace} {text : List Char} {items : List Item}
      (goes_on : (firstItem opened text).1.kind ≠ .ended)
      (valid : (firstItem opened text).1.kind ≠ .invalid)
      (behind : Reads ((firstItem opened text).1.openedBehind opened) (firstItem opened text).2
        items) :
      Reads opened text ((firstItem opened text).1 :: items)

/-- Reads the items of a text, up to a number of them. -/
def scanItems : Nat → List OpenBrace → List Char → Option (List Item)
  | 0, _, _ => none
  | fuel + 1, opened, text =>
    let item := (firstItem opened text).1
    if item.kind = .ended then some [item]
    else if item.kind = .invalid then none
    else (scanItems fuel (item.openedBehind opened) (firstItem opened text).2).map (item :: ·)

theorem reads_of_scanItems {fuel : Nat} {opened : List OpenBrace} {text : List Char}
    {items : List Item} (read : scanItems fuel opened text = some items) :
    Reads opened text items := by
  induction fuel generalizing opened text items with
  | zero => cases read
  | succ fuel ih =>
    rw [scanItems] at read
    split at read
    · rename_i ends
      cases read
      exact .ended ends
    · rename_i goes_on
      split at read
      · cases read
      · rename_i valid
        obtain ⟨behind, later, rfl⟩ := Option.map_eq_some_iff.1 read
        exact .token goes_on valid (ih later)

/-- A text is read in one way. -/
theorem Reads.unique {opened : List OpenBrace} {text : List Char} {items items' : List Item}
    (reads : Reads opened text items) (reads' : Reads opened text items') : items = items' := by
  induction reads generalizing items' with
  | ended ends =>
    cases reads' with
    | ended => rfl
    | token goes_on => exact absurd ends goes_on
  | token goes_on _ _ ih =>
    cases reads' with
    | ended ends => exact absurd ends goes_on
    | token _ _ behind => rw [ih behind]

/-! ## What items mean -/

/-- A text in which all line ends are line feeds, as those of template literals are taken. -/
def unifyLines : List Char → List Char
  | [] => []
  | c :: rest =>
    if c = '\r' then
      if rest.head? = some '\n' then unifyLines rest else '\n' :: unifyLines rest
    else c :: unifyLines rest

/-- The code points that the text of a template literal stands for, none if an escape in it is ill
formed. -/
def templatePoints : Option EscapeMode → List Char → Option (List Nat)
  | none, [] => some []
  | some .zero, [] => some [0]
  | some _, [] => none
  | none, c :: rest =>
    if c = '\\' then templatePoints (some .backslash) rest
    else (templatePoints none rest).map (c.toNat :: ·)
  | some mode, c :: rest =>
    match templateEscapeMove mode c with
    | .next mode => templatePoints (some mode) rest
    | .done code => (templatePoints none rest).map (escapePoints code c ++ ·)
    | .before _ =>
      -- only the escape of the null character ends before a character
      if c = '\\' then (templatePoints (some .backslash) rest).map (0 :: ·)
      else (templatePoints none rest).map ([0, c.toNat] ++ ·)
    | .wrong => none

/-- The text of a piece of a template literal, without its delimiters. -/
def templateText (closed : Bool) (source : List Char) : List Char :=
  (source.drop 1).take (source.length - if closed then 2 else 3)

/-- The code points that a string literal stands for. -/
def stringPoints : List Char → Option (List Nat)
  | [] => none
  | quote :: rest => (scanQuoted quote none [] 0 rest).map QuotedScan.points

/-- The code units of some code points, which are what a string consists of. -/
def codeUnits (points : List Nat) : List Nat :=
  points.flatMap fun n =>
    if n < 0x10000 then [n]
    else [0xD800 + (n - 0x10000) / 0x400, 0xDC00 + (n - 0x10000) % 0x400]

/-- What a token means to a program. -/
structure Meaning where
  kind : TokenKind
  /-- Its characters, with unified line ends in a template literal; none for a string literal, whose
  value may be spelled in several ways. -/
  spelling : List Char
  /-- The code units of the value of a string literal and of the cooked value of a piece of a
  template literal. -/
  value : Option (List Nat)
deriving DecidableEq, Repr

/-- What a token of some characters means. -/
def meaning (kind : TokenKind) (source : List Char) : Meaning :=
  match kind with
  | .string _ _ => ⟨kind, [], (stringPoints source).map codeUnits⟩
  | .template closed _ =>
    let text := templateText closed (unifyLines source)
    ⟨kind, text, (templatePoints none text).map codeUnits⟩
  | _ => ⟨kind, source, none⟩

/-- What an item means. -/
def Item.meaning (item : Item) : Meaning := Script.meaning item.kind item.source

end ReactiveMarkup.Script
