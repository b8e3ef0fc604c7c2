/-!
# Lines inside template literals

The text of a template literal is part of its value, so a line of code that starts inside such a
text must not be indented. `templateLineStarts` says this of every line of a piece of code. It
follows quoted literals, both kinds of comments and the substitutions of template literals. Open
braces are counted by a natural number that stands for a counter of 32 bits, which code of less than
4 GiB does not exceed.
-/

namespace ReactiveMarkup.Emission

/-- What the lines of code are inside of, from the inside out. -/
inductive Nesting
  /-- Code, with the number of braces open in it. -/
  | code (braces : Nat)
  /-- The text of a template literal. -/
  | template
deriving DecidableEq, Repr

/-- How the next character is read. -/
inductive Mode
  /-- According to the innermost nesting. -/
  | nested
  /-- After a backslash of a template literal. -/
  | templateEscape
  /-- After the dollar sign that opens a substitution; its brace follows. -/
  | substitution
  /-- Inside a literal between these quotes. -/
  | quoted (quote : Char)
  /-- After a backslash of such a literal. -/
  | quotedEscape (quote : Char)
  /-- Inside a comment that ends with the line. -/
  | lineComment
  /-- Before the star that opens a comment. -/
  | commentOpen
  /-- Inside a comment between stars, given whether a star came last. -/
  | comment (star : Bool)
deriving DecidableEq, Repr

/-- Whether the innermost nesting is the text of a template literal. -/
def inTemplateText : List Nesting → Bool
  | .template :: _ => true
  | _ => false

/-- For each line after the current one, whether it starts in the text of a template literal. -/
def lineStartsFrom : Mode → List Nesting → List Char → List Bool
  | _, _, [] => []
  | .nested, nesting, '\n' :: rest => inTemplateText nesting :: lineStartsFrom .nested nesting rest
  | .nested, [], _ :: rest => lineStartsFrom .nested [] rest
  | .nested, .template :: outer, c :: rest =>
    if c = '\\' then lineStartsFrom .templateEscape (.template :: outer) rest
    else if c = '`' then lineStartsFrom .nested outer rest
    else if c = '$' && rest.head? = some '{' then
      lineStartsFrom .substitution (.template :: outer) rest
    else lineStartsFrom .nested (.template :: outer) rest
  | .nested, .code braces :: outer, c :: rest =>
    if c = '`' then lineStartsFrom .nested (.template :: .code braces :: outer) rest
    else if c = '{' then lineStartsFrom .nested (.code (braces + 1) :: outer) rest
    else if c = '}' then
      if 0 < braces then lineStartsFrom .nested (.code (braces - 1) :: outer) rest
      else if outer.isEmpty then lineStartsFrom .nested [.code braces] rest
      else lineStartsFrom .nested outer rest
    else if c = '"' || c = '\'' then lineStartsFrom (.quoted c) (.code braces :: outer) rest
    else if c = '/' && rest.head? = some '/' then
      lineStartsFrom .lineComment (.code braces :: outer) rest
    else if c = '/' && rest.head? = some '*' then
      lineStartsFrom .commentOpen (.code braces :: outer) rest
    else lineStartsFrom .nested (.code braces :: outer) rest
  | .templateEscape, nesting, c :: rest =>
    if c = '\n' then true :: lineStartsFrom .nested nesting rest
    else lineStartsFrom .nested nesting rest
  | .substitution, nesting, _ :: rest => lineStartsFrom .nested (.code 0 :: nesting) rest
  | .quoted quote, nesting, c :: rest =>
    if c = '\\' then lineStartsFrom (.quotedEscape quote) nesting rest
    else if c = '\n' then false :: lineStartsFrom .nested nesting rest
    else if c = quote then lineStartsFrom .nested nesting rest
    else lineStartsFrom (.quoted quote) nesting rest
  | .quotedEscape quote, nesting, c :: rest =>
    if c = '\n' then false :: lineStartsFrom (.quoted quote) nesting rest
    else lineStartsFrom (.quoted quote) nesting rest
  | .lineComment, nesting, c :: rest =>
    if c = '\n' then inTemplateText nesting :: lineStartsFrom .nested nesting rest
    else lineStartsFrom .lineComment nesting rest
  | .commentOpen, nesting, _ :: rest => lineStartsFrom (.comment false) nesting rest
  | .comment star, nesting, c :: rest =>
    if c = '\n' then false :: lineStartsFrom (.comment false) nesting rest
    else if star && c = '/' then lineStartsFrom .nested nesting rest
    else lineStartsFrom (.comment (c = '*')) nesting rest

/-- For each line of code, whether it starts in the text of a template literal. -/
def templateLineStarts (code : List Char) : List Bool :=
  false :: lineStartsFrom .nested [.code 0] code

end ReactiveMarkup.Emission
