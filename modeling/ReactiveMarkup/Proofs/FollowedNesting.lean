import ReactiveMarkup.Emission.TemplateLines
import ReactiveMarkup.Proofs.CodeTokens

/-!
# Following the nesting of code

`lineStartsFrom` looks at a few characters only: quotes, backticks, braces, slashes and backslashes.
Behind each token that the lexer reads, it is in the nesting that the open braces give
(`nestingOf`): it is not misled by the characters inside a token.
-/

namespace ReactiveMarkup.Emission

open Markup (OpenBrace)
open Script

attribute [local simp] lineStartsFrom

/-! ## Characters of code -/

/-- The characters that mean something to the scanner in code. -/
def marks : List Char := ['\n', '`', '{', '}', '"', '\'', '/']

/-- What holds of no mark holds of other characters only. -/
theorem not_mem_marks {p : Char → Bool} (never : ∀ c ∈ marks, p c = false) {c : Char}
    (holds : p c = true) : c ∉ marks := by
  intro mem
  rw [never c mem] at holds
  cases holds

section

variable (braces : Nat) (outer : List Nesting) (rest : List Char)

theorem lineStartsFrom_plain {c : Char} (plain : c ∉ marks) :
    lineStartsFrom .nested (.code braces :: outer) (c :: rest) =
      lineStartsFrom .nested (.code braces :: outer) rest := by
  simp only [marks, List.mem_cons, List.not_mem_nil, or_false, not_or] at plain
  simp [plain]

theorem lineStartsFrom_plain_append {piece : List Char} (plain : ∀ c ∈ piece, c ∉ marks) :
    lineStartsFrom .nested (.code braces :: outer) (piece ++ rest) =
      lineStartsFrom .nested (.code braces :: outer) rest := by
  induction piece with
  | nil => rfl
  | cons c piece ih =>
    rw [List.cons_append, lineStartsFrom_plain _ _ _ (plain c List.mem_cons_self),
      ih fun c mem => plain c (List.mem_cons_of_mem _ mem)]

theorem lineStartsFrom_open :
    lineStartsFrom .nested (.code braces :: outer) ('{' :: rest) =
      lineStartsFrom .nested (.code (braces + 1) :: outer) rest := by
  simp

theorem lineStartsFrom_close :
    lineStartsFrom .nested (.code (braces + 1) :: outer) ('}' :: rest) =
      lineStartsFrom .nested (.code braces :: outer) rest := by
  simp

theorem lineStartsFrom_leave (ne : outer ≠ []) :
    lineStartsFrom .nested (.code 0 :: outer) ('}' :: rest) =
      lineStartsFrom .nested outer rest := by
  simp [ne]

theorem lineStartsFrom_stray :
    lineStartsFrom .nested [.code 0] ('}' :: rest) = lineStartsFrom .nested [.code 0] rest := by
  simp

theorem lineStartsFrom_quote {quote : Char} (isQuote : quote = '"' ∨ quote = '\'') :
    lineStartsFrom .nested (.code braces :: outer) (quote :: rest) =
      lineStartsFrom (.quoted quote) (.code braces :: outer) rest := by
  rcases isQuote with rfl | rfl <;> simp

theorem lineStartsFrom_backtick :
    lineStartsFrom .nested (.code braces :: outer) ('`' :: rest) =
      lineStartsFrom .nested (.template :: .code braces :: outer) rest := by
  simp

theorem lineStartsFrom_slash (line : rest.head? ≠ some '/') (block : rest.head? ≠ some '*') :
    lineStartsFrom .nested (.code braces :: outer) ('/' :: rest) =
      lineStartsFrom .nested (.code braces :: outer) rest := by
  simp [line, block]

end

/-! ## Names and numbers -/

theorem isIdentifierPart_marks : ∀ c ∈ marks, Text.isIdentifierPart c = false :=
  List.all_iff_forall_prop.1 (by decide +kernel)

theorem isIdentifierStart_marks : ∀ c ∈ marks, Text.isIdentifierStart c = false :=
  List.all_iff_forall_prop.1 (by decide +kernel)

theorem isNumberCharacter_marks : ∀ c ∈ marks, isNumberCharacter c = false :=
  List.all_iff_forall_prop.1 (by decide)

theorem not_mem_marks_of_fitsName {first : Bool} {c : Char} (fits : fitsName first c = true) :
    c ∉ marks := by
  cases first with
  | false => exact not_mem_marks isIdentifierPart_marks fits
  | true => exact not_mem_marks isIdentifierStart_marks fits

theorem not_mem_marks_of_hexValue? {c : Char} {digit : Nat} (value : hexValue? c = some digit) :
    c ∉ marks :=
  not_mem_marks isNumberCharacter_marks (isDigits_hexadecimal.fits c (by simp [value]))

/-- How many braces an escape of a name has opened. -/
def escapeBraces : Option EscapeMode → Nat
  | some (.braced _ _) => 1
  | _ => 0

/-- How many braces an escape has open behind one of its characters. -/
def EscapeMove.braces? : EscapeMove → Option Nat
  | .next mode => some (escapeBraces (some mode))
  | .done _ => some 0
  | _ => none

/-- A digit of an escape means nothing to the scanner, and opens no braces. -/
theorem digitMove_braces {count value : Nat} {c : Char} {n : Nat}
    (move : EscapeMove.braces? (digitMove count value c) = some n) : c ∉ marks ∧ n = 0 := by
  unfold digitMove at move
  split at move
  · cases move
  · rename_i digit isDigit
    refine ⟨not_mem_marks_of_hexValue? isDigit, ?_⟩
    split at move <;> cases move <;> rfl

/-- A character of an escape takes the scanner to the braces that the escape has open then. -/
theorem lineStartsFrom_unicodeMove {mode : EscapeMode} {c : Char} {n : Nat}
    (move : EscapeMove.braces? (unicodeMove mode c) = some n) (braces : Nat)
    (outer : List Nesting) (rest : List Char) :
    lineStartsFrom .nested (.code (braces + escapeBraces (some mode)) :: outer) (c :: rest) =
      lineStartsFrom .nested (.code (braces + n) :: outer) rest := by
  -- a digit is no mark of the scanner, and leaves the braces of the escape as they are
  have digit : ∀ {count value}, EscapeMove.braces? (digitMove count value c) = some n →
      lineStartsFrom .nested (.code (braces + 0) :: outer) (c :: rest) =
        lineStartsFrom .nested (.code (braces + n) :: outer) rest := by
    intro count value move
    obtain ⟨plain, rfl⟩ := digitMove_braces move
    exact lineStartsFrom_plain _ _ _ plain
  cases mode with
  | unicode =>
    by_cases opens : c = '{'
    · subst opens
      cases move
      exact lineStartsFrom_open _ _ _
    · rw [unicodeMove, if_neg opens] at move
      exact digit move
  | digits count value => exact digit move
  | braced started value =>
    by_cases closes : c = '}'
    · subst closes
      rw [unicodeMove, if_pos rfl] at move
      split at move <;> cases move
      exact lineStartsFrom_close _ _ _
    · rw [unicodeMove, if_neg closes] at move
      split at move
      · cases move
      · rename_i value isDigit
        split at move <;> cases move
        exact lineStartsFrom_plain _ _ _ (not_mem_marks_of_hexValue? isDigit)
  | backslash => cases move
  | zero => cases move
  | octal => cases move
  | carriageReturn => cases move

/-- A name leaves the scanner in the nesting that it stands in: the braces of its escapes come in
pairs. -/
theorem lineStartsFrom_name {mode : Option EscapeMode} {taken : List Char} {escaped : Bool}
    {index : Nat} {text : List Char} {scan : NameScan} (braces : Nat) (outer : List Nesting)
    (scanned : scanName mode taken escaped index text = some scan) :
    lineStartsFrom .nested (.code (braces + escapeBraces mode) :: outer) text =
      lineStartsFrom .nested (.code braces :: outer) scan.stop.rest := by
  have ended : ∀ {taken escaped} {stop : Cursor}, endName taken escaped stop = some scan →
      scan.stop = stop := by
    intro taken escaped stop ended
    unfold endName at ended
    split at ended <;> cases ended
    rfl
  -- the braces of an open escape stay on top of `braces` until the escape ends
  fun_induction scanName mode taken escaped index text with
  | case1 taken escaped index => rw [ended scanned]; rfl
  | case2 => cases scanned
  | case3 taken escaped index rest ih =>
    rw [← ih scanned]
    exact lineStartsFrom_plain _ _ _ (by decide)
  | case4 taken escaped index c rest plain fits ih =>
    rw [← ih scanned]
    exact lineStartsFrom_plain _ _ _ (not_mem_marks_of_fitsName fits)
  | case5 taken escaped index c rest plain unfit => rw [ended scanned]; rfl
  | case6 taken escaped index rest ih =>
    rw [← ih scanned]
    exact lineStartsFrom_plain _ _ _ (by decide)
  | case7 => cases scanned
  | case8 mode taken escaped index c rest other mode' move ih =>
    rw [← ih scanned]
    exact lineStartsFrom_unicodeMove (by rw [move]; rfl) braces outer rest
  | case9 mode taken escaped index c rest other code move fits ih =>
    rw [← ih scanned]
    exact lineStartsFrom_unicodeMove (by rw [move]; rfl) braces outer rest
  | case10 => cases scanned
  | case11 => cases scanned

theorem lineStartsFrom_number {c : Char} {more : List Char} {index : Nat} {stop : Cursor}
    (scanned : scanNumber ⟨c :: more, index⟩ = some stop) (braces : Nat) (outer : List Nesting) :
    lineStartsFrom .nested (.code braces :: outer) (c :: more) =
      lineStartsFrom .nested (.code braces :: outer) stop.rest := by
  cases read : number? (c :: more) with
  | none => simp [scanNumber, read] at scanned
  | some scan =>
    rw [scanNumber_eq read] at scanned
    split at scanned <;> cases scanned
    rw [← List.take_append_drop scan.length (c :: more)]
    rw [lineStartsFrom_plain_append _ _ _ fun c mem =>
      not_mem_marks isNumberCharacter_marks ((spans_number? read).2 c mem)]
    simp [Cursor.skip]

/-! ## Open braces -/

/-- The nesting with one more brace open. -/
def deepen : List Nesting → List Nesting
  | .code braces :: outer => .code (braces + 1) :: outer
  | nesting => nesting

/-- The nesting of code in which some braces are open. -/
def nestingOf : List OpenBrace → List Nesting
  | [] => [.code 0]
  | .plain :: outer => deepen (nestingOf outer)
  | .substitution :: outer => .code 0 :: .template :: nestingOf outer

theorem exists_code (opened : List OpenBrace) :
    ∃ braces outer, nestingOf opened = .code braces :: outer := by
  induction opened with
  | nil => exact ⟨0, [], rfl⟩
  | cons brace opened ih =>
    cases brace with
    | substitution => exact ⟨0, _, rfl⟩
    | plain =>
      obtain ⟨braces, outer, eq⟩ := ih
      exact ⟨braces + 1, outer, by rw [nestingOf, eq, deepen]⟩

theorem lineStartsFrom_openBrace (opened : List OpenBrace) (rest : List Char) :
    lineStartsFrom .nested (nestingOf opened) ('{' :: rest) =
      lineStartsFrom .nested (nestingOf (.plain :: opened)) rest := by
  obtain ⟨braces, outer, eq⟩ := exists_code opened
  rw [nestingOf, eq, deepen, lineStartsFrom_open]

theorem lineStartsFrom_closeBrace {opened : List OpenBrace}
    (inCode : opened.head? ≠ some .substitution) (rest : List Char) :
    lineStartsFrom .nested (nestingOf opened) ('}' :: rest) =
      lineStartsFrom .nested (nestingOf opened.tail) rest := by
  match opened with
  | [] => exact lineStartsFrom_stray rest
  | .plain :: opened =>
    obtain ⟨braces, outer, eq⟩ := exists_code opened
    rw [nestingOf, List.tail_cons, eq, deepen, lineStartsFrom_close]
  | .substitution :: opened => exact absurd rfl inCode

/-- Only braces, and a slash at the start, mean something to the scanner in punctuators. -/
theorem marks_of_punctuators : ∀ mark ∈ punctuators,
    mark = "\x7b" ∨ mark = "\x7d" ∨
      mark.toList.head?.all (fun c => c ∉ marks ∨ c = '/') = true ∧
        mark.toList.tail.all (· ∉ marks) = true := by
  decide +kernel

/-- A token that is no literal between delimiters and no brace leaves the open braces as they
are. -/
theorem openedBehind_of_ne {kind : TokenKind} {c : Char} (isLocal : kind.isLocal = true)
    (opens : kind ≠ .punctuator "\x7b") (closes : c ≠ '}') (opened : List OpenBrace) :
    openedBehind kind (some c) opened = opened := by
  cases kind with
  | word => simp [openedBehind, closes]
  | privateName => simp [openedBehind, closes]
  | number => simp [openedBehind, closes]
  | punctuator mark =>
    have other : mark ≠ "\x7b" := fun eq => opens (by rw [eq])
    simp [openedBehind, closes, other]
  | string | template | regularExpression | invalid | ended => cases isLocal

theorem head_of_isSolid_slash {rest : List Char} (solid : isSolid ('/' :: rest) = true) :
    rest.head? ≠ some '/' ∧ rest.head? ≠ some '*' := by
  simpa [isSolid, isLineEnd, show isSpace '/' = false by decide] using solid

theorem lineStartsFrom_punctuator {mark : String} {c : Char} {more : List Char}
    (read : punctuator? (c :: more) = some mark) (solid : isSolid (c :: more) = true)
    {opened : List OpenBrace}
    (inCode : mark = "\x7d" → opened.head? ≠ some .substitution) :
    lineStartsFrom .nested (nestingOf opened) (c :: more) =
      lineStartsFrom .nested (nestingOf (openedBehind (.punctuator mark) (some c) opened))
        ((c :: more).drop mark.length) := by
  obtain ⟨known, split⟩ := split_of_punctuator? read
  generalize (c :: more).drop mark.length = rest at split ⊢
  -- of the punctuators, only the two braces are marks of the scanner beyond a slash
  by_cases braces : mark = "\x7b" ∨ mark = "\x7d"
  · rcases braces with rfl | rfl
    · obtain ⟨rfl, rfl⟩ := List.cons.inj split
      exact lineStartsFrom_openBrace opened _
    · obtain ⟨rfl, rfl⟩ := List.cons.inj split
      exact lineStartsFrom_closeBrace (inCode rfl) _
  · rw [not_or] at braces
    obtain ⟨head, plain⟩ := ((marks_of_punctuators mark known).resolve_left braces.1).resolve_left
      braces.2
    cases spelled : mark.toList with
    | nil =>
      have nonempty : ∀ mark ∈ punctuators, mark.toList ≠ [] := by decide +kernel
      exact absurd spelled (nonempty mark known)
    | cons d piece =>
      rw [spelled, List.cons_append] at split
      obtain ⟨rfl, rfl⟩ := List.cons.inj split
      -- a slash at the start is one of a division, since no comment starts here
      have first : c ∉ marks ∨ c = '/' := by simpa [spelled] using head
      have closes : c ≠ '}' := by
        rintro rfl
        rcases first with plain | slash
        · exact plain (by decide)
        · exact absurd slash (by decide)
      obtain ⟨braces', outer, eq⟩ := exists_code opened
      have behind : ∀ d ∈ piece, d ∉ marks := by simpa [spelled] using plain
      rw [openedBehind_of_ne rfl (by simpa using braces.1) closes, eq,
        ← lineStartsFrom_plain_append braces' outer rest behind]
      rcases first with plain | rfl
      · exact lineStartsFrom_plain _ _ _ plain
      · obtain ⟨line, block⟩ := head_of_isSolid_slash solid
        exact lineStartsFrom_slash _ _ _ line block

/-- A token that is no literal between delimiters leads from the nesting of the open braces to the
nesting of those that are open behind it. -/
theorem lineStartsFrom_scanned {c : Char} {more : List Char} {index : Nat} {kind : TokenKind}
    {stop : Cursor} (scanned : Scanned c more index kind stop) (isLocal : kind.isLocal = true)
    (solid : isSolid (c :: more) = true) {opened : List OpenBrace}
    (inCode : kind = .punctuator "\x7d" → opened.head? ≠ some .substitution) :
    lineStartsFrom .nested (nestingOf opened) (c :: more) =
      lineStartsFrom .nested (nestingOf (openedBehind kind (some c) opened)) stop.rest := by
  obtain ⟨braces, outer, eq⟩ := exists_code opened
  cases scanned with
  | word opens scanned =>
    have brace : c ≠ '}' := by
      rintro rfl
      revert opens
      decide +kernel
    rw [openedBehind_of_ne rfl (by simp) brace, eq]
    exact lineStartsFrom_name braces outer scanned
  | privateName hash scanned =>
    subst hash
    rw [openedBehind_of_ne rfl (by simp) (by decide), eq, lineStartsFrom_plain _ _ _ (by decide)]
    exact lineStartsFrom_name braces outer scanned
  | string => cases isLocal
  | template => cases isLocal
  | number plain opens scanned =>
    have brace : c ≠ '}' := by
      rintro rfl
      cases opens
    rw [openedBehind_of_ne rfl (by simp) brace, eq]
    exact lineStartsFrom_number scanned braces outer
  | punctuator plain opens read =>
    exact lineStartsFrom_punctuator read solid fun closes => inCode (by rw [closes])

/-! ## String literals -/

/-- How the scanner reads on where the lexer is in a string literal. -/
def quotedMode (quote : Char) : Option EscapeMode → Mode
  | some .backslash => .quotedEscape quote
  | _ => .quoted quote

theorem quotedMode_of_ne {mode : EscapeMode} (later : mode ≠ .backslash) (quote : Char) :
    quotedMode quote (some mode) = .quoted quote := by
  cases mode with
  | backslash => exact absurd rfl later
  | digits | unicode | braced | zero | octal | carriageReturn => rfl

/-- No escape goes back to its backslash. -/
theorem ne_backslash_of_next {mode mode' : EscapeMode} {c : Char}
    (move : quotedEscapeMove mode c = .next mode') : mode' ≠ .backslash := by
  rintro rfl
  cases mode <;> grind [quotedEscapeMove, unicodeMove, digitMove, octalMove, firstOctal]

/-- The characters of an escape behind the first one mean nothing to the scanner. -/
theorem not_mem_of_quotedEscapeMove {mode : EscapeMode} {c : Char} (later : mode ≠ .backslash)
    (inLine : c ≠ '\n') (fine : quotedEscapeMove mode c ≠ .wrong)
    (within : ∀ code, quotedEscapeMove mode c ≠ .before code) : c ∉ ['\\', '\n', '"', '\''] := by
  have unicode : quotedEscapeMove mode c = unicodeMove mode c → c ∉ ['\\', '\n', '"', '\''] := by
    intro eq mem
    have outside : ∀ c ∈ ['\\', '\n', '"', '\''], ¬((hexValue? c).isSome ∨ c = '{' ∨ c = '}') :=
      List.all_iff_forall_prop.1 (by decide)
    exact outside c mem (escapes_of_unicodeMove (eq ▸ fine))
  cases mode with
  | backslash => exact absurd rfl later
  | digits | unicode | braced | zero => exact unicode rfl
  | octal count value =>
    have digit : isOctal c = true := by
      by_contra other
      exact within (some value) (by simp [quotedEscapeMove, octalMove, other])
    intro mem
    have outside : ∀ c ∈ ['\\', '\n', '"', '\''], isOctal c = false :=
      List.all_iff_forall_prop.1 (by decide)
    rw [outside c mem] at digit
    cases digit
  | carriageReturn =>
    exact absurd (by simp [quotedEscapeMove, inLine]) (within none)

theorem ne_backslash_of_before {mode : EscapeMode} {c : Char} {code : Option Nat}
    (move : quotedEscapeMove mode c = .before code) : mode ≠ .backslash := by
  rintro rfl
  grind [quotedEscapeMove]

section

variable {quote c : Char} (nesting : List Nesting) (rest : List Char)

theorem lineStartsFrom_quotedTextMove {before points : List Nat} {mode' : Option EscapeMode}
    (move : quotedTextMove quote before c = .next mode' points) :
    lineStartsFrom (.quoted quote) nesting (c :: rest) =
      lineStartsFrom (quotedMode quote mode') nesting rest := by
  unfold quotedTextMove at move
  split at move
  · cases move
  · rename_i inside
    split at move
    · rename_i escape
      cases move
      simp [escape, quotedMode]
    · rename_i plain
      split at move <;> cases move
      rename_i inLine
      simp only [Bool.or_eq_true, decide_eq_true_eq, not_or] at inLine
      simp [inside, plain, inLine.1, quotedMode]

variable (isQuote : quote = '"' ∨ quote = '\'')
include isQuote

theorem lineStartsFrom_quotedChar (inside : c ∉ ['\\', '\n', '"', '\'']) :
    lineStartsFrom (.quoted quote) nesting (c :: rest) =
      lineStartsFrom (.quoted quote) nesting rest := by
  simp only [List.mem_cons, List.not_mem_nil, or_false, not_or] at inside
  have other : c ≠ quote := by
    rcases isQuote with rfl | rfl
    · exact inside.2.2.1
    · exact inside.2.2.2
  simp [inside, other]

theorem lineStartsFrom_quotedTextClosed {before points : List Nat}
    (move : quotedTextMove quote before c = .closed points) :
    lineStartsFrom (.quoted quote) nesting (c :: rest) = lineStartsFrom .nested nesting rest := by
  unfold quotedTextMove at move
  split at move
  · rename_i closes
    rcases isQuote with rfl | rfl <;> simp [closes]
  · repeat' split at move
    all_goals cases move

/-- A character inside an escape that the escape takes. -/
theorem lineStartsFrom_escape {mode : EscapeMode} (inLine : c ≠ '\n')
    (fine : quotedEscapeMove mode c ≠ .wrong)
    (within : ∀ code, quotedEscapeMove mode c ≠ .before code) :
    lineStartsFrom (quotedMode quote (some mode)) nesting (c :: rest) =
      lineStartsFrom (.quoted quote) nesting rest := by
  by_cases first : mode = .backslash
  · subst first
    simp [quotedMode, inLine]
  · rw [quotedMode_of_ne first]
    exact lineStartsFrom_quotedChar _ _ isQuote
      (not_mem_of_quotedEscapeMove first inLine fine within)

theorem lineStartsFrom_quotedMove {mode mode' : Option EscapeMode} {points : List Nat}
    (move : quotedMove quote mode c = .next mode' points) (inLine : c ≠ '\n') :
    lineStartsFrom (quotedMode quote mode) nesting (c :: rest) =
      lineStartsFrom (quotedMode quote mode') nesting rest := by
  cases mode with
  | none => exact lineStartsFrom_quotedTextMove nesting rest move
  | some mode =>
    unfold quotedMove at move
    dsimp only at move
    split at move
    · rename_i mode' next
      cases move
      rw [quotedMode_of_ne (ne_backslash_of_next next)]
      exact lineStartsFrom_escape _ _ isQuote inLine (by simp [next]) (by simp [next])
    · rename_i code done
      cases move
      exact lineStartsFrom_escape _ _ isQuote inLine (by simp [done]) (by simp [done])
    · rename_i code before
      rw [quotedMode_of_ne (ne_backslash_of_before before)]
      exact lineStartsFrom_quotedTextMove nesting rest move
    · cases move

theorem lineStartsFrom_quotedClosed {mode : Option EscapeMode} {points : List Nat}
    (move : quotedMove quote mode c = .closed points) :
    lineStartsFrom (quotedMode quote mode) nesting (c :: rest) =
      lineStartsFrom .nested nesting rest := by
  cases mode with
  | none => exact lineStartsFrom_quotedTextClosed nesting rest isQuote move
  | some mode =>
    unfold quotedMove at move
    dsimp only at move
    split at move
    · cases move
    · cases move
    · rename_i code before
      rw [quotedMode_of_ne (ne_backslash_of_before before)]
      exact lineStartsFrom_quotedTextClosed nesting rest isQuote move
    · cases move

end

/-- A string literal on one line leaves the scanner in the nesting that it stands in. -/
theorem lineStartsFrom_quoted {quote : Char} (isQuote : quote = '"' ∨ quote = '\'')
    {mode : Option EscapeMode} {taken : List Nat} {index : Nat} {piece : List Char}
    {scan : QuotedScan} (scanned : scanQuoted quote mode taken index piece = some scan)
    (whole : scan.stop.rest = []) (inLine : '\n' ∉ piece) (nesting : List Nesting)
    (rest : List Char) :
    lineStartsFrom (quotedMode quote mode) nesting (piece ++ rest) =
      lineStartsFrom .nested nesting rest := by
  fun_induction scanQuoted quote mode taken index piece with
  | case1 => cases scanned
  | case2 mode taken index c piece mode' points move ih =>
    rw [List.mem_cons, not_or] at inLine
    rw [List.cons_append, lineStartsFrom_quotedMove _ _ isQuote move (Ne.symm inLine.1),
      ih scanned inLine.2]
  | case3 mode taken index c piece points move =>
    cases scanned
    obtain rfl : piece = [] := whole
    exact lineStartsFrom_quotedClosed nesting rest isQuote move
  | case4 => cases scanned

/-! ## Template literals -/

/-- The flags of the lines behind a place in a template literal that stands in a nesting. -/
def templateFlags (outer : List Nesting) : TemplateMode → List Char → List Bool
  | .closed, text => lineStartsFrom .nested outer text
  | .substitution, text => lineStartsFrom .nested (.code 0 :: .template :: outer) text
  | .dollar, text =>
    lineStartsFrom (if text.head? = some '{' then .substitution else .nested) (.template :: outer)
      text
  | .escape .backslash, text => lineStartsFrom .templateEscape (.template :: outer) text
  | .text, text | .escape _, text => lineStartsFrom .nested (.template :: outer) text

/-- The flag of a line that starts behind a character of a template literal. -/
def flagBehind (c : Char) : List Bool := if c = '\n' then [true] else []

theorem ne_backslash_of_templateNext {mode mode' : EscapeMode} {c : Char}
    (move : templateEscapeMove mode c = .next mode') : mode' ≠ .backslash := by
  rintro rfl
  cases mode <;> grind [templateEscapeMove, unicodeMove, digitMove]

section

variable (outer : List Nesting) {c : Char} (rest : List Char)

theorem lineStartsFrom_templateText {afterDollar : Bool} (inText : afterDollar = true → c ≠ '{') :
    lineStartsFrom .nested (.template :: outer) (c :: rest) =
      flagBehind c ++ templateFlags outer (templateTextMove afterDollar c) rest := by
  by_cases lineFeed : c = '\n'
  · subst lineFeed
    cases afterDollar <;> rfl
  by_cases closes : c = '`'
  · subst closes
    simp [templateTextMove, templateFlags, flagBehind]
  by_cases escapes : c = '\\'
  · subst escapes
    simp [templateTextMove, templateFlags, flagBehind]
  by_cases dollar : c = '$'
  · subst dollar
    by_cases opens : rest.head? = some '{' <;>
    simp [templateTextMove, templateFlags, flagBehind, opens]
  · have noBrace : (afterDollar && c = '{') = false := by
      cases afterDollar with
      | false => rfl
      | true => simpa using inText rfl
    simp [templateTextMove, templateFlags, flagBehind, lineFeed, closes, escapes,
      dollar, noBrace]

theorem templateFlags_of_ne {mode : EscapeMode} (later : mode ≠ .backslash) :
    templateFlags outer (.escape mode) rest = lineStartsFrom .nested (.template :: outer) rest := by
  cases mode with
  | backslash => exact absurd rfl later
  | digits | unicode | braced | zero | octal | carriageReturn => rfl

/-- A character that an escape takes behind the one at its backslash. -/
theorem lineStartsFrom_templateEscape {mode : EscapeMode} (later : mode ≠ .backslash)
    (fine : templateEscapeMove mode c ≠ .wrong)
    (within : ∀ code, templateEscapeMove mode c ≠ .before code) :
    lineStartsFrom .nested (.template :: outer) (c :: rest) =
      flagBehind c ++ lineStartsFrom .nested (.template :: outer) rest := by
  have unicode : templateEscapeMove mode c = unicodeMove mode c := by
    cases mode with
    | backslash => exact absurd rfl later
    | zero => grind [templateEscapeMove]
    | digits | unicode | braced | octal | carriageReturn => rfl
  have plain : c ∉ ['\n', '\\', '`', '$'] := by
    intro mem
    have outside : ∀ c ∈ ['\n', '\\', '`', '$'], ¬((hexValue? c).isSome ∨ c = '{' ∨ c = '}') :=
      List.all_iff_forall_prop.1 (by decide)
    exact outside c mem (escapes_of_unicodeMove (unicode ▸ fine))
  simp only [List.mem_cons, List.not_mem_nil, or_false, not_or] at plain
  simp [flagBehind, plain]

/-- A character of a template literal takes the scanner where it takes the lexer. -/
theorem templateFlags_cons {mode : TemplateMode} (goes_on : mode ≠ .closed)
    (inText : mode ≠ .substitution) :
    templateFlags outer mode (c :: rest) =
      flagBehind c ++ templateFlags outer (templateMove mode c).1 rest := by
  cases mode with
  | closed => exact absurd rfl goes_on
  | substitution => exact absurd rfl inText
  | text => exact lineStartsFrom_templateText outer rest (by simp)
  | dollar =>
    by_cases opens : c = '{'
    · subst opens
      simp [templateFlags, templateMove, templateTextMove, flagBehind]
    · rw [templateMove, ← lineStartsFrom_templateText outer rest fun _ => opens]
      simp [templateFlags, opens]
  | escape mode =>
    by_cases first : mode = .backslash
    · subst first
      -- whatever stands behind a backslash is passed over
      have behind : templateFlags outer (templateMove (.escape .backslash) c).1 rest =
          lineStartsFrom .nested (.template :: outer) rest := by
        unfold templateMove
        dsimp only
        split
        · rename_i mode' next
          exact templateFlags_of_ne outer rest (ne_backslash_of_templateNext next)
        · rfl
        · rename_i code before
          grind [templateEscapeMove]
        · rfl
      rw [behind]
      by_cases lineFeed : c = '\n' <;> simp [templateFlags, flagBehind, lineFeed]
    · rw [templateFlags_of_ne outer _ first]
      unfold templateMove
      dsimp only
      split
      · rename_i mode' next
        rw [templateFlags_of_ne outer rest (ne_backslash_of_templateNext next)]
        exact lineStartsFrom_templateEscape outer rest first (by simp [next]) (by simp [next])
      · rename_i code done
        exact lineStartsFrom_templateEscape outer rest first (by simp [done]) (by simp [done])
      · exact lineStartsFrom_templateText outer rest (by simp)
      · split
        · exact absurd rfl first
        · exact lineStartsFrom_templateText outer rest (by simp)

end

end ReactiveMarkup.Emission
