import Mathlib.Order.Filter.AtTopBot.Basic
import ReactiveMarkup.Emission.Printer
import ReactiveMarkup.Proofs.MarkupReading
import ReactiveMarkup.Proofs.QuotedText
import ReactiveMarkup.Proofs.ReadBackParameter
import ReactiveMarkup.Proofs.TemplateReading

/-!
# A reader of generated expressions

A reader that takes the text of a generated expression from the front of a text and builds the tree.
It looks no further than the next delimiter: an operand is a head with accesses and calls behind it,
and what comes behind an operand says how it is joined with the next one. Only parentheses may start
two things; they hold the parameters of an arrow function if names and an arrow follow, and an
expression otherwise. It is given fuel for its calls, and what is stated of it holds for all fuel
from some amount on (`∀ᶠ fuel in atTop`), so that this amount need not be counted.

Here are the reader and the lemmas on names, numbers, texts and the literal parts of templates.
-/

namespace ReactiveMarkup.Emission

open Filter (atTop)
open Markup (Stops takeWhile_of_stops)
open Script (scanQuoted joinSurrogates isSpelled tailsText)
open Text (stripLead? isIdentifierPart isIdentifierStart commaSeparated)

/-! ## Names, numbers and texts -/

/-- Reads a name, which has at least one character. -/
def readName? (text : List Char) : Option (String × List Char) :=
  if text.head?.any isIdentifierPart then
    some (String.ofList (text.takeWhile isIdentifierPart), text.dropWhile isIdentifierPart)
  else none

/-- Reads the names behind the first one of a list in parentheses. -/
def readNamesBehind : Nat → List Char → Option (List String × List Char)
  | 0, _ => none
  | fuel + 1, text =>
    if text.head? = some ')' then some ([], text.drop 1)
    else do
      let rest ← stripLead? [',', ' '] text
      let (name, rest) ← readName? rest
      let (names, rest) ← readNamesBehind fuel rest
      some (name :: names, rest)

/-- Reads a list of names in parentheses, after the first parenthesis. -/
def readNames (fuel : Nat) (text : List Char) : Option (List String × List Char) :=
  if text.head? = some ')' then some ([], text.drop 1)
  else do
    let (name, rest) ← readName? text
    let (names, rest) ← readNamesBehind fuel rest
    some (name :: names, rest)

/-- Reads the parameters of an arrow function and its arrow, after the first parenthesis. -/
def readArrow? (fuel : Nat) (text : List Char) : Option (List String × List Char) := do
  let (params, rest) ← readNames fuel text
  let rest ← stripLead? [' ', '=', '>', ' '] rest
  some (params, rest)

/-- Reads a number. -/
def readNumber (text : List Char) : Nat × List Char :=
  (Nat.ofDigitChars 10 (text.takeWhile Char.isDigit) 0, text.dropWhile Char.isDigit)

/-- Reads a quoted text, after its first quote. -/
def readText? (text : List Char) : Option (String × List Char) :=
  (scanQuoted '"' none [] 0 text).map fun scan =>
    (String.ofList (joinSurrogates scan.points), scan.stop.rest)

/-- Reads the literal part that a template goes on with, up to the next slot or the end. -/
def readLiteral : List Char → List Char × List Char
  | [] => ([], [])
  | '`' :: rest => ([], '`' :: rest)
  | '$' :: '{' :: rest => ([], '$' :: '{' :: rest)
  | '\\' :: c :: rest => (c :: (readLiteral rest).1, (readLiteral rest).2)
  | c :: rest => (c :: (readLiteral rest).1, (readLiteral rest).2)

/-! ## Joints and keywords -/

/-- How an operand is joined with what follows. -/
inductive Joint
  | assignment
  | operator (operator : String)
  | choice

/-- The characters that the marks of joints start with. -/
def jointMarks : List Char := ['=', '|', '>', '?']

/-- Reads what joins an operand with what follows. -/
def joint? : List Char → Option (Joint × List Char)
  | ' ' :: '=' :: ' ' :: rest => some (.assignment, rest)
  | ' ' :: '|' :: '|' :: ' ' :: rest => some (.operator "||", rest)
  | ' ' :: '>' :: ' ' :: rest => some (.operator ">", rest)
  | ' ' :: '?' :: ' ' :: rest => some (.choice, rest)
  | _ => none

/-- Reads the keyword that a statement starts with. A word behind which an operand is joined with
another one, or goes on, is none. -/
def keyword? (text : List Char) : Option (String × List Char) :=
  match text.dropWhile isIdentifierPart with
  | ' ' :: c :: rest =>
    if c ∈ jointMarks then none
    else some (String.ofList (text.takeWhile isIdentifierPart), c :: rest)
  | _ => none

/-! ## Trees -/

/-- What a name stands for where an expression may stand. -/
def ofName (name : String) : Expression :=
  if name = "true" then .boolean true else if name = "false" then .boolean false
  else .identifier name

mutual

/-- Reads an expression. -/
def readExpression : Nat → Nat → List Char → Option (Expression × List Char)
  | 0, _, _ => none
  | fuel + 1, depth, text => do
    let (left, rest) ← readOperand fuel depth text
    match joint? rest with
    | none => some (left, rest)
    | some (.assignment, rest) => do
      let (value, rest) ← readExpression fuel depth rest
      some (.assign left value, rest)
    | some (.operator operator, rest) => do
      let (right, rest) ← readOperand fuel depth rest
      some (.binary left operator right, rest)
    | some (.choice, rest) => do
      let (consequent, rest) ← readOperand fuel depth rest
      let rest ← stripLead? [' ', ':', ' '] rest
      let (alternate, rest) ← readOperand fuel depth rest
      some (.conditional left consequent alternate, rest)
termination_by structural fuel => fuel

/-- Reads an operand. -/
def readOperand : Nat → Nat → List Char → Option (Expression × List Char)
  | 0, _, _ => none
  | _ + 1, _, [] => none
  | fuel + 1, depth, c :: rest =>
    if c = '!' then do
      let (operand, rest) ← readOperand fuel depth rest
      some (.unary "!" operand, rest)
    else do
      let (head, rest) ← readHead fuel depth c rest
      readChain fuel depth head rest
termination_by structural fuel => fuel

/-- Reads the head of an operand, after its first character. -/
def readHead : Nat → Nat → Char → List Char → Option (Expression × List Char)
  | 0, _, _, _ => none
  | fuel + 1, depth, c, rest =>
    if c = '"' then do
      let (value, rest) ← readText? rest
      some (.text value, rest)
    else if c = '[' then do
      let (items, rest) ← readItems fuel depth ']' rest
      some (.array items, rest)
    else if c = '{' then
      if rest.head? = some '}' then some (.object [], rest.drop 1)
      else do
        let rest ← stripLead? ['\n'] rest
        let (methods, rest) ← readMethods fuel depth rest
        some (.object methods, rest)
    else if c = '`' then do
      let (parts, rest) ← readParts fuel depth rest
      some (.template parts, rest)
    else if c = '(' then
      match readArrow? fuel rest with
      | some (params, rest) => do
        let (body, rest) ← readOperand fuel depth rest
        some (.arrow params body, rest)
      | none => do
        let (inner, rest) ← readExpression fuel depth rest
        let rest ← stripLead? [')'] rest
        some (inner, rest)
    else if c.isDigit then some (.number (readNumber (c :: rest)).1, (readNumber (c :: rest)).2)
    else do
      let (name, rest) ← readName? (c :: rest)
      some (ofName name, rest)
termination_by structural fuel => fuel

/-- Reads the accesses and calls behind an operand. -/
def readChain : Nat → Nat → Expression → List Char → Option (Expression × List Char)
  | 0, _, _, _ => none
  | fuel + 1, depth, e, text =>
    if text.head? = some '.' then do
      let (property, rest) ← readName? (text.drop 1)
      readChain fuel depth (.member e property) rest
    else if text.head? = some '[' then do
      let (key, rest) ← readExpression fuel depth (text.drop 1)
      let rest ← stripLead? [']'] rest
      readChain fuel depth (.index e key) rest
    else if text.head? = some '(' then do
      let (arguments, rest) ← readItems fuel depth ')' (text.drop 1)
      readChain fuel depth (.call e arguments) rest
    else some (e, text)
termination_by structural fuel => fuel

/-- Reads a list of expressions up to the character that closes it. -/
def readItems : Nat → Nat → Char → List Char → Option (List Expression × List Char)
  | 0, _, _, _ => none
  | fuel + 1, depth, closer, text =>
    if text.head? = some closer then some ([], text.drop 1)
    else do
      let (item, rest) ← readExpression fuel depth text
      let (items, rest) ← readItemsBehind fuel depth closer rest
      some (item :: items, rest)
termination_by structural fuel => fuel

/-- Reads the expressions behind the first one of a list. -/
def readItemsBehind : Nat → Nat → Char → List Char → Option (List Expression × List Char)
  | 0, _, _, _ => none
  | fuel + 1, depth, closer, text =>
    if text.head? = some closer then some ([], text.drop 1)
    else do
      let rest ← stripLead? [',', ' '] text
      let (item, rest) ← readExpression fuel depth rest
      let (items, rest) ← readItemsBehind fuel depth closer rest
      some (item :: items, rest)
termination_by structural fuel => fuel

/-- Reads the parts of a template literal, after its first backtick. -/
def readParts : Nat → Nat → List Char → Option (List TemplatePart × List Char)
  | 0, _, _ => none
  | fuel + 1, depth, text =>
    match stripLead? ['`'] text with
    | some rest => some ([], rest)
    | none =>
      match stripLead? ['$', '{'] text with
      | some rest => do
        let (e, rest) ← readExpression fuel depth rest
        let rest ← stripLead? ['}'] rest
        let (parts, rest) ← readParts fuel depth rest
        some (.slot e :: parts, rest)
      | none => do
        let (parts, rest) ← readParts fuel depth (readLiteral text).2
        some (.literal (String.ofList (readLiteral text).1) :: parts, rest)
termination_by structural fuel => fuel

/-- Reads the methods of an object, after the line of its brace. -/
def readMethods : Nat → Nat → List Char → Option (List Method × List Char)
  | 0, _, _ => none
  | fuel + 1, depth, text => do
    let rest ← stripLead? (Text.indentation depth).toList text
    if rest.head? = some '}' then some ([], rest.drop 1)
    else do
      let rest ← stripLead? [' ', ' '] rest
      let (name, rest) ← readName? rest
      let rest ← stripLead? ['('] rest
      let (params, rest) ← readParameters fuel (depth + 1) rest
      let rest ← stripLead? [' ', '{', '\n'] rest
      let (body, rest) ← readBody fuel (depth + 1) rest
      let rest ← stripLead? [',', '\n'] rest
      let (methods, rest) ← readMethods fuel depth rest
      some (⟨name, params, body⟩ :: methods, rest)
termination_by structural fuel => fuel

/-- Reads one parameter. -/
def readParameter : Nat → Nat → List Char → Option (Parameter × List Char)
  | 0, _, _ => none
  | fuel + 1, depth, text => do
    let (name, rest) ← readName? text
    match stripLead? [' ', '=', ' '] rest with
    | none => some (⟨name, none⟩, rest)
    | some rest => do
      let (fallback, rest) ← readExpression fuel depth rest
      some (⟨name, some fallback⟩, rest)
termination_by structural fuel => fuel

/-- Reads a list of parameters, after the first parenthesis. -/
def readParameters : Nat → Nat → List Char → Option (List Parameter × List Char)
  | 0, _, _ => none
  | fuel + 1, depth, text =>
    if text.head? = some ')' then some ([], text.drop 1)
    else do
      let (param, rest) ← readParameter fuel depth text
      let (params, rest) ← readParametersBehind fuel depth rest
      some (param :: params, rest)
termination_by structural fuel => fuel

/-- Reads the parameters behind the first one of a list. -/
def readParametersBehind : Nat → Nat → List Char → Option (List Parameter × List Char)
  | 0, _, _ => none
  | fuel + 1, depth, text =>
    if text.head? = some ')' then some ([], text.drop 1)
    else do
      let rest ← stripLead? [',', ' '] text
      let (param, rest) ← readParameter fuel depth rest
      let (params, rest) ← readParametersBehind fuel depth rest
      some (param :: params, rest)
termination_by structural fuel => fuel

/-- Reads the statements of a body and its last brace, after the line of its first brace. -/
def readBody : Nat → Nat → List Char → Option (List Statement × List Char)
  | 0, _, _ => none
  | fuel + 1, depth, text => do
    let rest ← stripLead? (Text.indentation depth).toList text
    if rest.head? = some '}' then some ([], rest.drop 1)
    else do
      let rest ← stripLead? [' ', ' '] rest
      let (first, rest) ← readStatement fuel (depth + 1) rest
      let (others, rest) ← readBody fuel depth rest
      some (first :: others, rest)
termination_by structural fuel => fuel

/-- Reads a statement, after the indentation of its first line. -/
def readStatement : Nat → Nat → List Char → Option (Statement × List Char)
  | 0, _, _ => none
  | fuel + 1, depth, text =>
    match keyword? text with
    | none => do
      let (e, rest) ← readExpression fuel depth text
      let rest ← stripLead? [';', '\n'] rest
      some (.expression e, rest)
    | some (word, rest) => readKeyword fuel depth word rest
termination_by structural fuel => fuel

/-- Reads a statement, after its keyword. -/
def readKeyword : Nat → Nat → String → List Char → Option (Statement × List Char)
  | 0, _, _, _ => none
  | fuel + 1, depth, word, text =>
    if word = "let" then do
      let (param, rest) ← readParameter fuel depth text
      let rest ← stripLead? [';', '\n'] rest
      some (.declare param.name param.fallback, rest)
    else if word = "const" then do
      let (name, rest) ← readName? text
      let rest ← stripLead? [' ', '=', ' '] rest
      let (init, rest) ← readExpression fuel depth rest
      let rest ← stripLead? [';', '\n'] rest
      some (.constant name init, rest)
    else if word = "return" then do
      let (value, rest) ← readExpression fuel depth text
      let rest ← stripLead? [';', '\n'] rest
      some (.result value, rest)
    else if word = "if" then do
      let ((test, body), rest) ← readGuarded fuel depth text
      some (.guarded test body, rest)
    else if word = "while" then do
      let ((test, body), rest) ← readGuarded fuel depth text
      some (.loop test body, rest)
    else if word = "function" then do
      let (name, rest) ← readName? text
      let rest ← stripLead? ['('] rest
      let (params, rest) ← readNames fuel rest
      let rest ← stripLead? [' ', '{', '\n'] rest
      let (body, rest) ← readBody fuel depth rest
      let rest ← stripLead? ['\n'] rest
      some (.function name params body, rest)
    else if word = "for" then do
      let rest ← stripLead? ['(', 'c', 'o', 'n', 's', 't', ' '] text
      let (binding, rest) ← readName? rest
      let rest ← stripLead? [' ', 'o', 'f', ' '] rest
      let (iterable, rest) ← readExpression fuel depth rest
      let rest ← stripLead? [')', ' ', '{', '\n'] rest
      let (body, rest) ← readBody fuel depth rest
      let rest ← stripLead? ['\n'] rest
      some (.each binding iterable body, rest)
    else if word = "try" then do
      let rest ← stripLead? ['{', '\n'] text
      let (body, rest) ← readBody fuel depth rest
      let rest ← stripLead? " finally \x7b\n".toList rest
      let (finalizer, rest) ← readBody fuel depth rest
      let rest ← stripLead? ['\n'] rest
      some (.ensured body finalizer, rest)
    else none
termination_by structural fuel => fuel

/-- Reads a test in parentheses and the body that it guards. -/
def readGuarded : Nat → Nat → List Char → Option ((Expression × List Statement) × List Char)
  | 0, _, _ => none
  | fuel + 1, depth, text => do
    let rest ← stripLead? ['('] text
    let (test, rest) ← readExpression fuel depth rest
    let rest ← stripLead? [')', ' ', '{', '\n'] rest
    let (body, rest) ← readBody fuel depth rest
    let rest ← stripLead? ['\n'] rest
    some ((test, body), rest)
termination_by structural fuel => fuel

end

/-- What holds one step of the reader later holds for large fuel. -/
theorem eventually_of_succ {p : Nat → Prop} (later : ∀ᶠ fuel in atTop, p (fuel + 1)) :
    ∀ᶠ fuel in atTop, p fuel := by
  rw [← Filter.map_add_atTop_eq_nat 1]
  exact later

/-! ## Names in front of other characters -/

theorem stripLead?_append (lead rest : List Char) : stripLead? lead (lead ++ rest) = some rest :=
  Text.stripLead?_eq_some_iff.2 rfl

theorem stripLead?_of_ne {c d : Char} (ne : c ≠ d) (lead rest : List Char) :
    stripLead? (c :: lead) (d :: rest) = none := if_neg ne

theorem isIdentifierPart_of_start {c : Char} (start : isIdentifierStart c = true) :
    isIdentifierPart c = true := by
  unfold isIdentifierStart at start
  unfold isIdentifierPart
  split at start
  · rename_i ascii
    rw [if_pos ascii]
    simp only [Bool.or_eq_true, Char.isAlphanum] at start ⊢
    exact start.imp_left (·.imp_left .inl)
  · rename_i wide
    rw [if_neg wide, start]
    rfl

theorem isIdentifierPart_of_isDigit {c : Char} (digit : c.isDigit = true) :
    isIdentifierPart c = true := by
  have ascii : c.toNat < 0x80 := by
    simp only [Char.isDigit, Bool.and_eq_true, decide_eq_true_eq, UInt32.le_iff_toNat_le] at digit
    exact Nat.lt_of_le_of_lt digit.2 (by decide)
  simp [isIdentifierPart, ascii, Char.isAlphanum, digit]

/-- Characters of names are no delimiters. -/
theorem ne_of_isIdentifierPart {c d : Char} (part : isIdentifierPart c = true)
    (other : isIdentifierPart d = false) : c ≠ d := by
  rintro rfl
  rw [part] at other
  cases other

theorem stops_cons {c : Char} (other : isIdentifierPart c = false) (rest : List Char) :
    Stops isIdentifierPart (c :: rest) := by
  intro d head
  cases head
  exact other

theorem exists_cons_of_spelled {name : String} (spelled : isSpelled name = true) :
    ∃ c more, name.toList = c :: more ∧ ∀ d ∈ c :: more, isIdentifierPart d = true := by
  obtain ⟨c, more, same, start, parts⟩ := Script.exists_cons_of_isSpelled spelled
  refine ⟨c, more, same, fun d mem => ?_⟩
  rcases List.mem_cons.1 mem with rfl | mem
  · exact isIdentifierPart_of_start start
  · exact List.all_eq_true.1 parts d mem

/-- A name is read up to the first character that names do not have. -/
theorem readName?_append {name : String} (spelled : isSpelled name = true) {rest : List Char}
    (ends : Stops isIdentifierPart rest) : readName? (name.toList ++ rest) = some (name, rest) := by
  obtain ⟨c, more, same, parts⟩ := exists_cons_of_spelled spelled
  have run := takeWhile_of_stops (same ▸ parts) ends
  have starts : (name.toList ++ rest).head?.any isIdentifierPart = true := by
    rw [same]
    exact parts c List.mem_cons_self
  rw [readName?, if_pos starts, run.1, run.2, String.ofList_toList]

theorem head?_name_ne {name : String} (spelled : isSpelled name = true) (rest : List Char)
    {d : Char} (other : isIdentifierPart d = false) : (name.toList ++ rest).head? ≠ some d := by
  obtain ⟨c, more, same, parts⟩ := exists_cons_of_spelled spelled
  rw [same]
  rintro ⟨⟩
  exact ne_of_isIdentifierPart (parts _ List.mem_cons_self) other rfl

theorem stops_tailsText (texts : List String) {c : Char} (other : isIdentifierPart c = false)
    (rest : List Char) : Stops isIdentifierPart (tailsText texts ++ c :: rest) := by
  cases texts with
  | nil => exact stops_cons other rest
  | cons text texts => exact stops_cons (by decide) _

theorem readNamesBehind_tails {names : List String}
    (spelled : ∀ name ∈ names, isSpelled name = true) (rest : List Char) :
    ∀ᶠ fuel in atTop, readNamesBehind fuel (tailsText names ++ ')' :: rest) =
      some (names, rest) := by
  induction names with
  | nil => exact eventually_of_succ (.of_forall fun _ => rfl)
  | cons name names ih =>
    have first := readName?_append (spelled name List.mem_cons_self)
      (stops_tailsText names (by decide : isIdentifierPart ')' = false) rest)
    have text : tailsText (name :: names) ++ ')' :: rest =
        [',', ' '] ++ (name.toList ++ (tailsText names ++ ')' :: rest)) := by
      simp [tailsText]
    refine eventually_of_succ ?_
    filter_upwards [ih fun n mem => spelled n (List.mem_cons_of_mem _ mem)] with fuel others
    rw [readNamesBehind, text, if_neg (by simp), stripLead?_append]
    simp [first, others]

theorem readNames_list {names : List String} (spelled : ∀ name ∈ names, isSpelled name = true)
    (rest : List Char) :
    ∀ᶠ fuel in atTop, readNames fuel ((commaSeparated names).toList ++ ')' :: rest) =
      some (names, rest) := by
  cases names with
  | nil => exact .of_forall fun _ => rfl
  | cons name names =>
    have spelled_name := spelled name List.mem_cons_self
    have first := readName?_append spelled_name
      (stops_tailsText names (by decide : isIdentifierPart ')' = false) rest)
    filter_upwards [readNamesBehind_tails (fun n mem => spelled n (List.mem_cons_of_mem _ mem))
      rest] with fuel others
    rw [Script.toList_commaSeparated, List.append_assoc, readNames,
      if_neg (head?_name_ne spelled_name _ (by decide))]
    simp [first, others]

/-! ## Numbers, texts and literal parts -/

theorem toList_toString (n : Nat) : (toString n).toList = Nat.toDigits 10 n := by
  rw [Nat.toString_eq_ofList_toDigits, String.toList_ofList]

theorem readNumber_append (n : Nat) {rest : List Char} (ends : Stops isIdentifierPart rest) :
    readNumber ((toString n).toList ++ rest) = (n, rest) := by
  have digits : ∀ c ∈ Nat.toDigits 10 n, c.isDigit = true := fun c mem =>
    Nat.isDigit_of_mem_toDigits (by decide) (by decide) mem
  have ends' : Stops Char.isDigit rest := by
    intro c head
    rw [Bool.eq_false_iff]
    intro digit
    have part := isIdentifierPart_of_isDigit digit
    rw [ends c head] at part
    cases part
  have run := takeWhile_of_stops digits ends'
  rw [readNumber, toList_toString, run.1, run.2, Nat.ofDigitChars_ten_toDigits]

theorem readText?_append (value : String) (rest : List Char) :
    readText? (value.toList.flatMap quotedChar ++ '"' :: rest) = some (value, rest) := by
  rw [readText?, scanQuoted_text]
  simp [joinSurrogates_map_toNat]

/-- An escaped text starts with a brace only if the text does. -/
theorem exists_brace_of_templateText {text more : List Char}
    (brace : templateText text = '{' :: more) : ∃ rest, text = '{' :: rest := by
  revert brace
  fun_cases templateText text with
  | case5 c rest =>
    rintro ⟨⟩
    exact ⟨rest, rfl⟩
  | _ => rintro ⟨⟩

section

variable {rest : List Char}
  (ends : (∃ more, rest = '`' :: more) ∨ ∃ more, rest = '$' :: '{' :: more)

include ends

/-- The end of the template and the start of a slot do not turn a dollar sign before them into the
start of a slot. -/
theorem templateText_append_ne_brace {text : List Char} (noBrace : ∀ more, text ≠ '{' :: more)
    (more : List Char) : templateText text ++ rest ≠ '{' :: more := by
  intro brace
  rcases List.append_eq_cons_iff.1 brace with ⟨-, start⟩ | ⟨inside, start, -⟩
  · rcases ends with ⟨_, rfl⟩ | ⟨_, rfl⟩ <;> cases start
  · obtain ⟨behind, same⟩ := exists_brace_of_templateText start
    exact noBrace behind same

/-- A literal part is read up to a slot or to the end of the template. -/
theorem readLiteral_append (text : List Char) :
    readLiteral (templateText text ++ rest) = (text, rest) := by
  have stopped : readLiteral rest = ([], rest) := by
    rcases ends with ⟨more, rfl⟩ | ⟨more, rfl⟩ <;> rfl
  fun_induction templateText text with
  | case1 => exact stopped
  | case2 text ih => rw [List.cons_append, List.cons_append, readLiteral, ih]
  | case3 text ih => rw [List.cons_append, List.cons_append, readLiteral, ih]
  | case4 text ih =>
    rw [List.cons_append, List.cons_append, List.cons_append, readLiteral, readLiteral.eq_5, ih]
    all_goals simp
  | case5 c text not_backslash not_backtick no_slot ih =>
    have unopened : ∀ more, c = '$' → templateText text ++ rest = '{' :: more → False :=
      fun more dollar => templateText_append_ne_brace ends (fun _ => no_slot _ dollar) more
    rw [List.cons_append, readLiteral.eq_5 c _ not_backtick unopened, ih]
    exact fun _ _ backslash _ => not_backslash backslash

/-- A literal part with a character in it is neither the end of the template nor a slot. -/
theorem templateText_append_opens {text : List Char} (visible : text ≠ []) :
    stripLead? ['`'] (templateText text ++ rest) = none ∧
      stripLead? ['$', '{'] (templateText text ++ rest) = none := by
  fun_cases templateText text with
  | case1 => exact absurd rfl visible
  | case2 | case3 | case4 => exact ⟨rfl, rfl⟩
  | case5 c text not_backslash not_backtick no_slot =>
    refine ⟨stripLead?_of_ne (Ne.symm not_backtick) _ _, ?_⟩
    by_cases dollar : c = '$'
    · subst dollar
      cases same : templateText text ++ rest with
      | nil => simp [same, stripLead?]
      | cons d more =>
        have noBrace : '{' ≠ d := by
          rintro rfl
          exact templateText_append_ne_brace ends (fun _ => no_slot _ rfl) more same
        rw [List.cons_append, same]
        simp [stripLead?, noBrace]
    · exact stripLead?_of_ne (Ne.symm dollar) _ _

end

/-! ## What an expression starts with -/

/-- Whether a text goes on as an expression does behind a name that it starts with: with an access,
a call or a joint. -/
inductive GoesOn : List Char → Prop
  | link {c : Char} (isLink : c ∈ ['.', '[', '(']) (rest : List Char) : GoesOn (c :: rest)
  | joint {c : Char} (isMark : c ∈ jointMarks) (rest : List Char) : GoesOn (' ' :: c :: rest)

theorem GoesOn.append {text : List Char} (goesOn : GoesOn text) (rest : List Char) :
    GoesOn (text ++ rest) := by
  cases goesOn with
  | link isLink more => exact .link isLink (more ++ rest)
  | joint isMark more => exact .joint isMark (more ++ rest)

theorem GoesOn.stops {text : List Char} (goesOn : GoesOn text) : Stops isIdentifierPart text := by
  cases goesOn with
  | link isLink more =>
    have other : ∀ c ∈ ['.', '[', '('], isIdentifierPart c = false :=
      List.all_iff_forall_prop.1 (by decide)
    exact stops_cons (other _ isLink) more
  | joint _ more => exact stops_cons (by decide) _

/-- The characters that no expression starts with and that stand behind one. -/
def delimiters : List Char := [' ', ')', ']'] ++ jointMarks

theorem not_mem_delimiters {c : Char} (part : isIdentifierPart c = true) : c ∉ delimiters := by
  have others : ∀ d ∈ delimiters, isIdentifierPart d = false :=
    List.all_iff_forall_prop.1 (by decide)
  intro mem
  exact ne_of_isIdentifierPart part (others c mem) rfl

/-- Whether a piece starts as expressions do: with no delimiter, and if with a name, this name is
all or it goes on behind it. -/
def Opens (piece : List Char) : Prop :=
  ∃ c more, piece = c :: more ∧ c ∉ delimiters ∧
    (isIdentifierPart c = true → ∀ rest, Stops isIdentifierPart rest →
      (piece ++ rest).dropWhile isIdentifierPart = rest ∨
        GoesOn ((piece ++ rest).dropWhile isIdentifierPart))

theorem opens_mark {c : Char} (isMark : c ∉ delimiters ∧ isIdentifierPart c = false)
    (more : List Char) : Opens (c :: more) := by
  refine ⟨c, more, rfl, isMark.1, fun part => ?_⟩
  rw [isMark.2] at part
  cases part

theorem opens_run {c : Char} {more : List Char}
    (parts : ∀ d ∈ c :: more, isIdentifierPart d = true) : Opens (c :: more) :=
  ⟨c, more, rfl, not_mem_delimiters (parts c List.mem_cons_self), fun _ _ ends =>
    .inl (takeWhile_of_stops parts ends).2⟩

theorem Opens.append {piece : List Char} (opens : Opens piece) {more : List Char}
    (goesOn : GoesOn more) : Opens (piece ++ more) := by
  obtain ⟨c, inner, rfl, start, behind⟩ := opens
  refine ⟨c, inner ++ more, rfl, start, fun part rest _ => .inr ?_⟩
  have goesOn' := goesOn.append rest
  rw [List.append_assoc]
  rcases behind part (more ++ rest) goesOn'.stops with same | goesOn
  · rw [same]
    exact goesOn'
  · exact goesOn

theorem Opens.head?_ne {piece : List Char} (opens : Opens piece) (rest : List Char) {d : Char}
    (isDelimiter : d ∈ delimiters) : (piece ++ rest).head? ≠ some d := by
  obtain ⟨c, more, rfl, start, -⟩ := opens
  rintro ⟨⟩
  exact start isDelimiter

theorem readName?_of_other {c : Char} (other : isIdentifierPart c = false) (rest : List Char) :
    readName? (c :: rest) = none := by
  rw [readName?, if_neg]
  simp [other]

theorem readNamesBehind_of_goesOn {text : List Char} (goesOn : GoesOn text) (fuel : Nat) :
    readNamesBehind fuel text = none := by
  cases fuel with
  | zero => rfl
  | succ fuel =>
    rw [readNamesBehind]
    cases goesOn with
    | link isLink rest =>
      have others : ∀ c ∈ ['.', '[', '('], ',' ≠ c ∧ c ≠ ')' :=
        List.all_iff_forall_prop.1 (by decide)
      obtain ⟨ne, ne'⟩ := others _ isLink
      rw [if_neg (by simpa using ne'), stripLead?_of_ne ne]
      rfl
    | joint => rfl

/-- Parentheses around a joint hold no parameters. -/
theorem readArrow?_eq_none {piece rest : List Char} (opens : Opens piece) (goesOn : GoesOn rest)
    (fuel : Nat) : readArrow? fuel (piece ++ rest) = none := by
  have closed : (piece ++ rest).head? ≠ some ')' := opens.head?_ne rest (by decide)
  obtain ⟨c, more, rfl, -, behind⟩ := opens
  rw [readArrow?, readNames, if_neg closed]
  cases part : isIdentifierPart c with
  | false =>
    rw [List.cons_append, readName?_of_other part]
    rfl
  | true =>
    have goesOn' : GoesOn ((c :: more ++ rest).dropWhile isIdentifierPart) := by
      rcases behind part rest goesOn.stops with same | goesOn'
      · rw [same]
        exact goesOn
      · exact goesOn'
    have starts : (c :: more ++ rest).head?.any isIdentifierPart = true := by simpa using part
    rw [readName?, if_pos starts]
    simp only [Option.bind_eq_bind, Option.bind_some, Option.bind_none,
      readNamesBehind_of_goesOn goesOn']

theorem keyword?_of_behind {text behind : List Char}
    (same : text.dropWhile isIdentifierPart = behind)
    (other : behind.head? ≠ some ' ' ∨ GoesOn behind) : keyword? text = none := by
  rw [keyword?, same]
  split
  · rename_i c rest
    rcases other with noBlank | goesOn
    · exact absurd rfl noBlank
    · cases goesOn with
      | link isLink => exact absurd isLink (by decide)
      | joint isMark => rw [if_pos isMark]
  · rfl

/-- An expression starts with no keyword. -/
theorem keyword?_eq_none {piece rest : List Char} (opens : Opens piece)
    (ends : Stops isIdentifierPart rest) (noBlank : rest.head? ≠ some ' ') :
    keyword? (piece ++ rest) = none := by
  obtain ⟨c, more, rfl, start, behind⟩ := opens
  cases part : isIdentifierPart c with
  | false =>
    have same : (c :: more ++ rest).dropWhile isIdentifierPart = c :: (more ++ rest) := by
      simp [part]
    refine keyword?_of_behind same (.inl ?_)
    rintro ⟨⟩
    exact start (by decide)
  | true =>
    rcases behind part rest ends with same | goesOn
    · exact keyword?_of_behind same (.inl noBlank)
    · exact keyword?_of_behind rfl (.inr goesOn)

theorem keyword?_append {word : String} (spelled : isSpelled word = true) {c : Char}
    (other : c ∉ jointMarks) (rest : List Char) :
    keyword? (word.toList ++ ' ' :: c :: rest) = some (word, c :: rest) := by
  obtain ⟨d, more, same, parts⟩ := exists_cons_of_spelled spelled
  have ends : Stops isIdentifierPart (' ' :: c :: rest) := stops_cons (by decide) _
  have run := takeWhile_of_stops (same ▸ parts) ends
  rw [keyword?, run.1, run.2]
  simp [other]

end ReactiveMarkup.Emission
