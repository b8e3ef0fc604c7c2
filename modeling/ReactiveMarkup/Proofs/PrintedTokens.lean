import Mathlib.Data.Bool.AllAny
import Mathlib.Data.List.Find
import ReactiveMarkup.Script.Parser
import ReactiveMarkup.Script.Printer

/-!
# Tokens of printed text

A printed script is read token by token. What is left to read is always the end of one text, so a
place in it is known from what follows (`Cursor.before`), and so is the state of a reader
(`ReaderState.facing`), up to its notes. The lemmas here say which token a printed piece starts
with: a mark, or a word spelled as names are. The printer puts nothing but blanks and line feeds
between tokens.
-/

namespace ReactiveMarkup.Script

/-- The place before the end `text` of a script of `total` characters. -/
def Cursor.before (total : Nat) (text : List Char) : Cursor := ⟨text, total - text.length⟩

theorem Cursor.skip_before {total : Nat} {piece rest : List Char}
    (room : (piece ++ rest).length ≤ total) {n : Nat} (length : piece.length = n) :
    (Cursor.before total (piece ++ rest)).skip n = .before total rest := by
  subst length
  rw [List.length_append] at room
  simp only [Cursor.before, Cursor.skip, List.drop_left, Cursor.mk.injEq, true_and,
    List.length_append]
  omega

/-- The text between two places is what stands between them. -/
theorem Cursor.slice_before {total : Nat} {piece rest : List Char}
    (room : (piece ++ rest).length ≤ total) :
    (Cursor.before total (piece ++ rest)).slice (total - rest.length) = String.ofList piece := by
  rw [List.length_append] at room
  have count : total - rest.length - (total - (piece ++ rest).length) = piece.length := by
    rw [List.length_append]
    omega
  rw [Cursor.slice, Cursor.before, count, List.take_left]

/-! ## Blanks -/

/-- Whether a text is what the printer puts between tokens. -/
def Blank (gap : List Char) : Prop := ∀ c ∈ gap, c = ' ' ∨ c = '\n'

theorem Blank.nil : Blank [] := fun _ mem => absurd mem List.not_mem_nil

theorem Blank.space : Blank [' '] := by simp [Blank]

theorem Blank.cons_newLine {gap : List Char} (blank : Blank gap) : Blank ('\n' :: gap) := by
  intro c mem
  rcases List.mem_cons.1 mem with rfl | mem
  · exact .inr rfl
  · exact blank c mem

theorem blank_indentation (depth : Nat) : Blank (Text.indentation depth).toList := by
  induction depth with
  | zero => exact Blank.nil
  | succ depth ih =>
    intro c mem
    rw [Text.indentation, String.toList_append] at mem
    rcases List.mem_append.1 mem with mem | mem
    · simp at mem
      exact .inl mem
    · exact ih c mem

/-- Whether a text does not start with a blank or a comment. -/
def isSolid : List Char → Bool
  | [] => true
  | c :: rest =>
    !isLineEnd c && !isSpace c &&
      !(c = '/' && (rest.head? = some '/' || rest.head? = some '*'))

theorem skipGap_solid {text : List Char} (solid : isSolid text = true) (newLine : Bool)
    (index : Nat) : skipGap .blank newLine index text = ⟨⟨text, index⟩, newLine, true⟩ := by
  cases text with
  | nil => rfl
  | cons c rest =>
    simp only [isSolid, Bool.and_eq_true, Bool.not_eq_true', Bool.and_eq_false_iff,
      Bool.or_eq_false_iff] at solid
    obtain ⟨⟨lineEnd, space⟩, comment⟩ := solid
    rw [skipGap, if_neg (by simp [lineEnd]), if_neg (by simp [space])]
    rcases comment with slash | ⟨line, block⟩
    · rw [if_neg (by simp [slash]), if_neg (by simp [slash])]
    · rw [if_neg (by simp [line]), if_neg (by simp [block])]

theorem skipGap_blank {gap text : List Char} (blank : Blank gap) (solid : isSolid text = true)
    (newLine : Bool) (index : Nat) :
    skipGap .blank newLine index (gap ++ text) =
      ⟨⟨text, index + gap.length⟩, newLine || gap.contains '\n', true⟩ := by
  induction gap generalizing newLine index with
  | nil => simp [skipGap_solid solid]
  | cons c gap ih =>
    have later : Blank gap := fun c mem => blank c (List.mem_cons_of_mem _ mem)
    rcases blank c List.mem_cons_self with rfl | rfl
    · rw [List.cons_append, skipGap, if_neg (by decide), if_pos (by decide), ih later]
      simp [Nat.add_comm, Nat.add_left_comm]
    · rw [List.cons_append, skipGap, if_pos (by decide), ih later]
      simp [Nat.add_comm, Nat.add_left_comm]

/-- The token behind some blanks. -/
theorem scanToken_before {total : Nat} {gap text : List Char} (blank : Blank gap)
    (solid : isSolid text = true) (room : (gap ++ text).length ≤ total) :
    scanToken (.before total (gap ++ text)) =
      ⟨(scanAt (.before total text)).1, .before total text, (scanAt (.before total text)).2,
        gap.contains '\n'⟩ := by
  have stop : (⟨text, (Cursor.before total (gap ++ text)).index + gap.length⟩ : Cursor) =
      .before total text := by
    rw [List.length_append] at room
    simp only [Cursor.before, List.length_append, Cursor.mk.injEq, true_and]
    omega
  rw [scanToken, show (Cursor.before total (gap ++ text)).rest = gap ++ text from rfl,
    skipGap_blank blank solid, stop]
  simp

/-! ## Marks -/

theorem isPrefixOf_append {mark piece tail : List Char}
    (outside : ∀ c, tail.head? = some c → c ∉ mark) :
    mark.isPrefixOf (piece ++ tail) = mark.isPrefixOf piece := by
  induction mark generalizing piece with
  | nil => simp
  | cons c mark ih =>
    cases piece with
    | nil =>
      cases tail with
      | nil => rfl
      | cons d tail =>
        have differs : (c == d) = false :=
          beq_eq_false_iff_ne.2 fun eq => outside d rfl (eq ▸ List.mem_cons_self)
        simp [List.isPrefixOf, differs]
    | cons d piece =>
      simp only [List.cons_append, List.isPrefixOf]
      rw [ih fun d head mem => outside d head (List.mem_cons_of_mem _ mem)]

/-- Whether a mark that stands before a text ends there, whatever mark it is. -/
def endsMark : List Char → Bool
  | [] => true
  | c :: _ => c = ' ' || isLineEnd c

theorem punctuators_solid :
    ∀ mark ∈ punctuators, ∀ c ∈ mark.toList, c ≠ ' ' ∧ isLineEnd c = false := by
  have all : ∀ mark ∈ punctuators,
      mark.toList.all (fun c => c ≠ ' ' ∧ isLineEnd c = false) = true := by
    decide +kernel
  exact fun mark known => List.all_iff_forall_prop.1 (all mark known)

theorem isDigit_of_endsMark {c : Char} {tail : List Char} (ends : endsMark (c :: tail) = true) :
    c.isDigit = false := by
  simp only [endsMark, isLineEnd, Bool.or_eq_true, decide_eq_true_eq] at ends
  rcases ends with rfl | ((rfl | rfl) | rfl) | rfl <;> decide

theorem startsWithPunctuator_append {mark : String} (known : mark ∈ punctuators)
    {piece tail : List Char} (ends : endsMark tail = true) :
    startsWithPunctuator (piece ++ tail) mark = startsWithPunctuator piece mark := by
  have outside : ∀ c, tail.head? = some c → c ∉ mark.toList := by
    intro c head mem
    obtain ⟨tail, rfl⟩ : ∃ more, tail = c :: more := by
      cases tail with
      | nil => cases head
      | cons d more => exact ⟨more, by rw [Option.some.inj head]⟩
    obtain ⟨blank, lineEnd⟩ := punctuators_solid mark known c mem
    simp [endsMark, blank, lineEnd] at ends
  rw [startsWithPunctuator, startsWithPunctuator, isPrefixOf_append outside]
  by_cases optional : mark = "?."
  · subst optional
    cases starts : "?.".toList.isPrefixOf piece with
    | false => rfl
    | true =>
      -- a piece that starts with the mark has the character behind the mark in it, or ends there
      obtain ⟨behind, rfl⟩ := List.isPrefixOf_iff_prefix.1 starts
      have digit : (behind ++ tail).head?.any Char.isDigit = behind.head?.any Char.isDigit := by
        cases behind with
        | cons c behind => rfl
        | nil =>
          cases tail with
          | nil => rfl
          | cons c tail => simp [isDigit_of_endsMark ends]
      simpa using digit
  · simp [optional]

/-- What punctuator a text starts with does not depend on what follows a blank or a line end. -/
theorem punctuator?_append {piece tail : List Char} (ends : endsMark tail = true) :
    punctuator? (piece ++ tail) = punctuator? piece :=
  List.find?_congr fun _ known => startsWithPunctuator_append known ends

/-- Whether a token that starts with a text is none but a punctuator. -/
def opensMark : List Char → Bool
  | [] => false
  | c :: rest =>
    !(c = '\\' || Text.isIdentifierStart c) && c ≠ '#' && !(c = '"' || c = '\'') && c ≠ '`' &&
      !(c.isDigit || c = '.' && rest.head?.any Char.isDigit)

theorem scanAt_opensMark {start : Cursor} (opens : opensMark start.rest = true) {mark : String}
    (found : punctuator? start.rest = some mark) :
    scanAt start = (.punctuator mark, start.skip mark.length) := by
  obtain ⟨text, index⟩ := start
  cases text with
  | nil => cases opens
  | cons c rest =>
    simp only [opensMark, Bool.and_eq_true, Bool.not_eq_true', decide_eq_true_eq] at opens
    obtain ⟨⟨⟨⟨word, hidden⟩, quoted⟩, template⟩, number⟩ := opens
    simp only [scanAt, word, hidden, quoted, template, number, found, if_false,
      Bool.false_eq_true]

/-- Whether a printed text starts with a mark that is a token. -/
structure MarkAt (mark : String) (rest : List Char) : Prop where
  solid : isSolid (mark.toList ++ rest) = true
  opens : opensMark (mark.toList ++ rest) = true
  found : punctuator? (mark.toList ++ rest) = some mark

/-- What a token that a blank follows must satisfy to be a mark does not depend on what is behind
the blank. -/
theorem marks_before_blank : ∀ mark ∈ punctuators,
    isSolid (mark.toList ++ [' ']) = true ∧ opensMark (mark.toList ++ [' ']) = true ∧
      punctuator? mark.toList = some mark := by
  decide +kernel

theorem head?_append_blank (piece rest : List Char) :
    (piece ++ ' ' :: rest).head? = (piece ++ [' ']).head? := by
  cases piece <;> rfl

theorem markAt_blank {mark : String} (known : mark ∈ punctuators) (rest : List Char) :
    MarkAt mark (' ' :: rest) := by
  obtain ⟨solid, opens, found⟩ := marks_before_blank mark known
  refine ⟨?_, ?_, by rw [punctuator?_append rfl, found]⟩
  · cases eq : mark.toList with
    | nil => rw [eq] at solid; cases solid
    | cons c piece =>
      rw [eq] at solid
      simpa only [List.cons_append, isSolid, head?_append_blank piece rest] using solid
  · cases eq : mark.toList with
    | nil => rfl
    | cons c piece =>
      rw [eq] at opens
      simpa only [List.cons_append, opensMark, head?_append_blank piece rest] using opens

/-- The marks that are tokens whatever follows them. -/
def closedMarks : List String := [";", ")", "(", ",", "\x7b", "\x7d", "++", "--", ":"]

theorem markAt_closed {mark : String} (known : mark ∈ closedMarks) (rest : List Char) :
    MarkAt mark rest := by
  simp only [closedMarks, List.mem_cons, List.not_mem_nil, or_false] at known
  rcases known with rfl | rfl | rfl | rfl | rfl | rfl | rfl | rfl | rfl <;>
  exact ⟨rfl, rfl, rfl⟩

/-- The token that a mark behind some blanks is. -/
theorem MarkAt.scanToken {total : Nat} {mark : String} {gap rest : List Char}
    (mark_at : MarkAt mark rest) (blank : Blank gap)
    (room : (gap ++ (mark.toList ++ rest)).length ≤ total) :
    Script.scanToken (.before total (gap ++ (mark.toList ++ rest))) =
      ⟨.punctuator mark, .before total (mark.toList ++ rest), .before total rest,
        gap.contains '\n'⟩ := by
  have narrow : (mark.toList ++ rest).length ≤ total := by
    rw [List.length_append] at room
    omega
  have scan : scanAt (.before total (mark.toList ++ rest)) =
      (.punctuator mark, .before total rest) := by
    rw [scanAt_opensMark mark_at.opens mark_at.found, Cursor.skip_before narrow]
    exact String.length_toList
  rw [scanToken_before blank mark_at.solid room, scan]

/-! ## Words -/

/-- Whether a name that stands before a text ends there. -/
def endsName : List Char → Bool
  | [] => true
  | c :: _ => !Text.isIdentifierPart c && c ≠ '\\'

theorem isIdentifierPart_backslash : Text.isIdentifierPart '\\' = false := by decide

theorem scanName_spelled {piece rest : List Char} (spelled : piece.all Text.isIdentifierPart = true)
    (ends : endsName rest = true) {taken : List Char} (started : taken ≠ []) (escaped : Bool)
    (index : Nat) :
    scanName none taken escaped index (piece ++ rest) =
      some ⟨taken.reverse ++ piece, escaped, ⟨rest, index + piece.length⟩⟩ := by
  induction piece generalizing taken index with
  | nil =>
    have finish : endName taken escaped ⟨rest, index⟩ =
        some ⟨taken.reverse, escaped, ⟨rest, index⟩⟩ := by
      simp [endName, started]
    cases rest with
    | nil => simpa [scanName] using finish
    | cons c rest =>
      simp only [endsName, Bool.and_eq_true, Bool.not_eq_true', decide_eq_true_eq] at ends
      have fits : fitsName taken.isEmpty c = false := by
        simp [fitsName, started, ends.1]
      simp only [List.nil_append, scanName, ends.2, fits, if_false, Bool.false_eq_true, finish,
        List.append_nil, List.length_nil, Nat.add_zero]
  | cons c piece ih =>
    simp only [List.all_cons, Bool.and_eq_true] at spelled
    have plain : c ≠ '\\' := by
      rintro rfl
      rw [isIdentifierPart_backslash] at spelled
      cases spelled.1
    have fits : fitsName taken.isEmpty c = true := by
      simp [fitsName, started, spelled.1]
    rw [List.cons_append, scanName]
    simp only [plain, fits, if_false, if_true]
    rw [ih spelled.2 (List.cons_ne_nil _ _)]
    simp [Nat.add_comm, Nat.add_left_comm]

/-- The code points of blanks and of digits. -/
def spaceAndDigitCodes : List Nat :=
  [0x0009, 0x000B, 0x000C, 0x0020, 0x0085, 0x00A0, 0x1680, 0x2000, 0x2001, 0x2002, 0x2003, 0x2004,
   0x2005, 0x2006, 0x2007, 0x2008, 0x2009, 0x200A, 0x200B, 0x202F, 0x205F, 0x3000, 0xFEFF,
   48, 49, 50, 51, 52, 53, 54, 55, 56, 57]

theorem mem_codes_of_isSpace {c : Char} (space : isSpace c = true) :
    c.toNat ∈ spaceAndDigitCodes := by
  simp only [isSpace, spaceRanges, Text.inRanges, Bool.if_false_left, Bool.if_true_left,
    Bool.and_eq_true, Bool.or_eq_true, Bool.not_eq_true', decide_eq_true_eq,
    decide_eq_false_iff_not, Bool.or_false] at space
  simp only [spaceAndDigitCodes, List.mem_cons, List.not_mem_nil, or_false]
  omega

theorem mem_codes_of_isDigit {c : Char} (digit : c.isDigit = true) :
    c.toNat ∈ spaceAndDigitCodes := by
  simp only [Char.isDigit, Bool.and_eq_true, decide_eq_true_eq, ge_iff_le,
    UInt32.le_iff_toNat_le] at digit
  have low : 48 ≤ c.toNat := digit.1
  have high : c.toNat ≤ 57 := digit.2
  simp only [spaceAndDigitCodes, List.mem_cons, List.not_mem_nil, or_false]
  omega

theorem isIdentifierStart_codes :
    ∀ code ∈ spaceAndDigitCodes, Text.isIdentifierStart (Char.ofNat code) = false := by
  decide +kernel

/-- A name starts with no blank, no comment and no digit. -/
theorem isIdentifierStart_solid {c : Char} (start : Text.isIdentifierStart c = true) :
    isLineEnd c = false ∧ isSpace c = false ∧ c ≠ '/' ∧ c ≠ '.' ∧ c.isDigit = false := by
  have other : ∀ d, Text.isIdentifierStart d = false → c ≠ d := by
    rintro d no rfl
    rw [no] at start
    cases start
  have no_code : c.toNat ∉ spaceAndDigitCodes := by
    intro mem
    have no := isIdentifierStart_codes _ mem
    rw [Char.ofNat_toNat] at no
    exact other c no rfl
  refine ⟨?_, ?_, other _ (by decide), other _ (by decide), ?_⟩
  · simp [isLineEnd, other '\n' (by decide), other '\r' (by decide),
      other '\u2028' (by decide +kernel), other '\u2029' (by decide +kernel)]
  · exact Bool.eq_false_iff.2 fun space => no_code (mem_codes_of_isSpace space)
  · exact Bool.eq_false_iff.2 fun digit => no_code (mem_codes_of_isDigit digit)

section

variable {word : String} {rest : List Char}

theorem exists_cons_of_isSpelled (spelled : isSpelled word = true) :
    ∃ c piece, word.toList = c :: piece ∧ Text.isIdentifierStart c = true ∧
      piece.all Text.isIdentifierPart = true := by
  unfold isSpelled at spelled
  split at spelled
  · cases spelled
  · rename_i c piece eq
    rw [Bool.and_eq_true] at spelled
    exact ⟨c, piece, eq, spelled⟩

theorem isSolid_word (spelled : isSpelled word = true) :
    isSolid (word.toList ++ rest) = true := by
  obtain ⟨c, piece, eq, start, -⟩ := exists_cons_of_isSpelled spelled
  obtain ⟨lineEnd, space, slash, -⟩ := isIdentifierStart_solid start
  simp [eq, isSolid, lineEnd, space, slash]

theorem scanAt_word {total : Nat} (spelled : isSpelled word = true) (ends : endsName rest = true)
    (room : (word.toList ++ rest).length ≤ total) :
    scanAt (.before total (word.toList ++ rest)) = (.word word false, .before total rest) := by
  obtain ⟨c, piece, eq, start, parts⟩ := exists_cons_of_isSpelled spelled
  have scan : scanName none [] false (Cursor.before total (word.toList ++ rest)).index
      (word.toList ++ rest) = some ⟨word.toList, false, .before total rest⟩ := by
    have plain : c ≠ '\\' := by
      rintro rfl
      revert start
      decide
    rw [eq, List.cons_append, scanName]
    simp only [plain, if_false, fitsName, List.isEmpty_nil, if_true, start]
    rw [scanName_spelled parts ends (List.cons_ne_nil _ _)]
    rw [eq, List.length_append, List.length_cons] at room
    simp only [Cursor.before, List.reverse_singleton, List.singleton_append, Option.some.injEq,
      NameScan.mk.injEq, true_and, Cursor.mk.injEq, List.length_append, List.length_cons]
    omega
  have opens : (Cursor.before total (word.toList ++ rest)).rest = c :: (piece ++ rest) := by
    rw [Cursor.before, eq, List.cons_append]
  rw [scanAt, opens]
  simp only [start, Bool.or_true, if_true]
  rw [← List.cons_append, ← eq, scan]
  simp

/-- The token that a word behind some blanks is. -/
theorem scanToken_word {total : Nat} {gap : List Char} (spelled : isSpelled word = true)
    (ends : endsName rest = true) (blank : Blank gap)
    (room : (gap ++ (word.toList ++ rest)).length ≤ total) :
    scanToken (.before total (gap ++ (word.toList ++ rest))) =
      ⟨.word word false, .before total (word.toList ++ rest), .before total rest,
        gap.contains '\n'⟩ := by
  have narrow : (word.toList ++ rest).length ≤ total := by
    rw [List.length_append] at room
    omega
  rw [scanToken_before blank (isSolid_word spelled) room, scanAt_word spelled ends narrow]

/-- The mark of an access by name. -/
theorem markAt_dot (spelled : isSpelled word = true) : MarkAt "." (word.toList ++ rest) := by
  obtain ⟨c, piece, eq, start, -⟩ := exists_cons_of_isSpelled spelled
  obtain ⟨-, -, -, dot, digit⟩ := isIdentifierStart_solid start
  have text : String.toList "." ++ (word.toList ++ rest) = '.' :: c :: (piece ++ rest) := by
    simp [eq]
  refine ⟨?_, ?_, ?_⟩ <;> rw [text]
  · rfl
  · simp [opensMark, digit]
    decide
  · have other : ('.' == c) = false := beq_eq_false_iff_ne.2 (Ne.symm dot)
    simp [punctuator?, punctuators, List.find?, startsWithPunctuator, List.isPrefixOf, other]

end

end ReactiveMarkup.Script
