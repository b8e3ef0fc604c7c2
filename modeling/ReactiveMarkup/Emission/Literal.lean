import ReactiveMarkup.Text.Bytes

/-!
# Literals of generated modules

How a text is written as a quoted literal and as the text part of a template literal, such that
reading the literal gives the text back. For a template the text is replaced three times;
`toList_escapeTemplate` shows that the replacements do not disturb each other and come to one pass
over the text.
-/

namespace ReactiveMarkup.Emission

open Text (replaceAll)

/-- A character inside a quoted literal. -/
def quotedChar : Char → List Char
  | '\\' => ['\\', '\\']
  | '"' => ['\\', '"']
  | '\n' => ['\\', 'n']
  | '\r' => ['\\', 'r']
  | '\t' => ['\\', 't']
  | '\u2028' => ['\\', 'u', '2', '0', '2', '8']
  | '\u2029' => ['\\', 'u', '2', '0', '2', '9']
  | '\u200b' => ['\\', 'u', '2', '0', '0', 'b']
  | c => [c]

/-- A text as a literal between double quotes. -/
def quoted (text : List Char) : List Char :=
  '"' :: text.flatMap quotedChar ++ ['"']

/-- `quoted` on strings. -/
def quote (text : String) : String := String.ofList (quoted text.toList)

/-- A text with its backslashes and then its backticks escaped. -/
def escapeTicks (text : List Char) : List Char :=
  replaceAll ['`'] ['\\', '`'] (replaceAll ['\\'] ['\\', '\\'] text)

/-- A text as it stands in a template literal: its backslashes are escaped, then its backticks, and
last each dollar sign with a brace after it. -/
def escapeTemplate (text : String) : String :=
  String.ofList (replaceAll ['$', '{'] ['\\', '$', '{'] (escapeTicks text.toList))

/-- What `escapeTemplate` writes, in one pass: backslashes, backticks and each dollar sign with a
brace after it are escaped. -/
def templateText : List Char → List Char
  | [] => []
  | '\\' :: rest => '\\' :: '\\' :: templateText rest
  | '`' :: rest => '\\' :: '`' :: templateText rest
  | '$' :: '{' :: rest => '\\' :: '$' :: '{' :: templateText rest
  | c :: rest => c :: templateText rest

@[simp] theorem escapeTicks_nil : escapeTicks [] = [] := rfl

theorem escapeTicks_cons (c : Char) (rest : List Char) :
    escapeTicks (c :: rest) =
      (if c = '\\' then ['\\', '\\'] else if c = '`' then ['\\', '`'] else [c]) ++
        escapeTicks rest := by
  by_cases backslash : c = '\\'
  · simp [escapeTicks, Text.replaceAll_singleton, backslash]
  · simp [escapeTicks, Text.replaceAll_singleton, backslash]

/-- Only a brace is written as one. -/
theorem brace_of_escapeTicks {text more : List Char} (brace : escapeTicks text = '{' :: more) :
    ∃ rest, text = '{' :: rest := by
  cases text with
  | nil => simp at brace
  | cons c rest =>
    rw [escapeTicks_cons] at brace
    split at brace
    · simp at brace
    · split at brace
      · simp at brace
      · exact ⟨rest, congrArg (· :: rest) (List.cons.inj brace).1⟩

/-- The three replacements together are one pass over the text. -/
theorem replaceAll_escapeTicks (text : List Char) :
    replaceAll ['$', '{'] ['\\', '$', '{'] (escapeTicks text) = templateText text := by
  have kept {c : Char} {rest : List Char} (absent : ¬ ['$', '{'] <+: c :: rest) :=
    Text.replaceAll_cons ['\\', '$', '{'] absent
  fun_induction templateText text with
  | case1 => rfl
  | case2 rest ih =>
    rw [escapeTicks_cons, if_pos rfl, ← ih]
    simp [kept]
  | case3 rest ih =>
    rw [escapeTicks_cons, if_neg (by decide), if_pos rfl, ← ih]
    simp [kept]
  | case4 rest ih =>
    have opened := Text.replaceAll_append ['\\', '$', '{'] (List.cons_ne_nil '$' ['{'])
      (escapeTicks rest)
    simpa [escapeTicks_cons, ih] using opened
  | case5 c rest noBackslash noTick noSlot ih =>
    have absent : ¬ ['$', '{'] <+: c :: escapeTicks rest := by
      rintro ⟨more, slot⟩
      obtain ⟨dollar, brace⟩ := List.cons.inj slot
      obtain ⟨behind, rfl⟩ := brace_of_escapeTicks brace.symm
      exact noSlot behind dollar.symm rfl
    rw [escapeTicks_cons, if_neg noBackslash, if_neg noTick, List.singleton_append, kept absent, ih]

@[simp] theorem toList_escapeTemplate (text : String) :
    (escapeTemplate text).toList = templateText text.toList := by
  rw [escapeTemplate, String.toList_ofList, replaceAll_escapeTicks]

end ReactiveMarkup.Emission
