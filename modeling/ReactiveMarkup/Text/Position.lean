import ReactiveMarkup.Text.Bytes

/-!
# Lines and columns

A byte offset is shown to readers as a line and a column, both counted from one. Lines end at line
feeds only; columns count characters.

Offsets, lines and columns are natural numbers here and stand for numbers of 32 bits, so what is
proved of them is about sources of less than 4 GiB.
-/

namespace ReactiveMarkup.Text

/-- A place in a text as readers name it. -/
structure Position where
  line : Nat
  column : Nat
deriving DecidableEq, Repr

/-- The position just after a text. -/
def endPosition (text : List Char) : Position where
  line := text.count '\n' + 1
  column := (text.reverse.takeWhile (· ≠ '\n')).length + 1

/-- The position of a byte offset. An offset beyond the text has the position of its end. -/
def positionAt (text : List Char) (offset : Nat) : Position :=
  endPosition (takeBytes offset text)

end ReactiveMarkup.Text
