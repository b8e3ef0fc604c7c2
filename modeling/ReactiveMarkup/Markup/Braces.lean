import ReactiveMarkup.Text.Bytes

/-!
# Balanced braces

An expression in markup ends at the brace that matches the one before it. Braces in quoted literals
and in the text of template literals do not count; those of substitutions do.
-/

namespace ReactiveMarkup.Markup

/-- A brace that is open. -/
inductive OpenBrace
  /-- An ordinary brace. -/
  | plain
  /-- The brace of a substitution in a template literal. -/
  | substitution
deriving DecidableEq, Repr

/-- How the next character is read. -/
inductive BraceMode
  | code
  /-- Inside a literal between these quotes. -/
  | quoted (quote : Char)
  /-- After a backslash of such a literal. -/
  | quotedEscape (quote : Char)
  /-- Inside the text of a template literal. -/
  | template
  /-- After a backslash of a template literal. -/
  | templateEscape
  /-- After the dollar sign that starts a substitution; its brace follows. -/
  | dollar
deriving DecidableEq, Repr

/-- Splits a text at the closing brace of the outermost open one: what stands before that brace, and
what follows it. The open braces are given innermost first. -/
def splitAtClosing : BraceMode → List OpenBrace → List Char → Option (List Char × List Char)
  | _, _, [] => none
  | .code, opened, c :: rest =>
    if c = '"' || c = '\'' then keep c (splitAtClosing (.quoted c) opened rest)
    else if c = '`' then keep c (splitAtClosing .template opened rest)
    else if c = '{' then keep c (splitAtClosing .code (.plain :: opened) rest)
    else if c = '}' then
      match opened with
      | .substitution :: outer => keep c (splitAtClosing .template outer rest)
      | .plain :: inner :: outer => keep c (splitAtClosing .code (inner :: outer) rest)
      | _ => some ([], rest)
    else keep c (splitAtClosing .code opened rest)
  | .quoted quote, opened, c :: rest =>
    if c = '\\' then keep c (splitAtClosing (.quotedEscape quote) opened rest)
    else if c = quote then keep c (splitAtClosing .code opened rest)
    else keep c (splitAtClosing (.quoted quote) opened rest)
  | .quotedEscape quote, opened, c :: rest => keep c (splitAtClosing (.quoted quote) opened rest)
  | .template, opened, c :: rest =>
    if c = '\\' then keep c (splitAtClosing .templateEscape opened rest)
    else if c = '`' then keep c (splitAtClosing .code opened rest)
    else if c = '$' && rest.head? = some '{' then keep c (splitAtClosing .dollar opened rest)
    else keep c (splitAtClosing .template opened rest)
  | .templateEscape, opened, c :: rest => keep c (splitAtClosing .template opened rest)
  | .dollar, opened, c :: rest => keep c (splitAtClosing .code (.substitution :: opened) rest)
where
  /-- Puts a character back in front of a split text. -/
  keep (c : Char) : Option (List Char × List Char) → Option (List Char × List Char)
    | some (before, after) => some (c :: before, after)
    | none => none

/-- Splits what follows an opening brace at the matching one. -/
def splitBraced (text : List Char) : Option (List Char × List Char) :=
  splitAtClosing .code [.plain] text

end ReactiveMarkup.Markup
