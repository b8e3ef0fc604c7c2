/-!
# Layout of printed code

What the printers of scripts and of generated modules share.
-/

namespace ReactiveMarkup.Text

/-- The indentation of a level: two spaces for each. -/
def indentation : Nat → String
  | 0 => ""
  | depth + 1 => "  " ++ indentation depth

/-- A list with a comma and a space between the items. -/
def commaSeparated (items : List String) : String := ", ".intercalate items

end ReactiveMarkup.Text
