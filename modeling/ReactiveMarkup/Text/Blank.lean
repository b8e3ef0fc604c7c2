/-!
# Blank characters

The characters of the Unicode property `White_Space`. Markup skips them between attributes, and a
text that holds nothing else is not a text node.
-/

namespace ReactiveMarkup.Text

/-- The ranges of `White_Space`, first and last code point, in ascending order. -/
def blankRanges : List (Nat × Nat) :=
  [(0x0009, 0x000D), (0x0020, 0x0020), (0x0085, 0x0085), (0x00A0, 0x00A0), (0x1680, 0x1680),
   (0x2000, 0x200A), (0x2028, 0x2029), (0x202F, 0x202F), (0x205F, 0x205F), (0x3000, 0x3000)]

/-- Whether a character is white space. -/
def isBlank (c : Char) : Bool :=
  blankRanges.any fun (first, last) => first ≤ c.toNat && c.toNat ≤ last

/-- Whether a text holds nothing but white space. -/
def allBlank (text : List Char) : Bool := text.all isBlank

end ReactiveMarkup.Text
