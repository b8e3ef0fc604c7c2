/-!
# Lines of a text

A line ends at a line feed, or at a carriage return with a line feed after it. A last line without
an end is a line too, unless it is empty.
-/

namespace ReactiveMarkup.Text

/-- The text of a line, given its characters before the line feed in reverse order. -/
def closedLine : List Char → List Char
  | '\r' :: before => before.reverse
  | before => before.reverse

/-- The lines of a text that continues the line `before`, which is given in reverse order. -/
def linesFrom : List Char → List Char → List (List Char)
  | [], [] => []
  | before, [] => [before.reverse]
  | before, '\n' :: rest => closedLine before :: linesFrom [] rest
  | before, c :: rest => linesFrom (c :: before) rest

/-- The lines of a text, without their ends. -/
def lines (text : List Char) : List (List Char) := linesFrom [] text

end ReactiveMarkup.Text
