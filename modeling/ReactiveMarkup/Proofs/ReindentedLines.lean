import Mathlib.Data.List.Basic
import ReactiveMarkup.Emission.Printer

/-!
# Script text with its lines indented

`printVerbatim` works on whole lines. `reindent` is the same layout as a walk over the characters,
which can be compared with a scanner over the same characters (`toList_printVerbatim`): each line
feed is followed by the indentation of the next line, unless that line starts in the text of a
template literal or is blank, a blank line is left out, and so is a carriage return before a line
feed.
-/

namespace ReactiveMarkup.Emission

/-- The characters up to the end of the line. -/
def lineOf (text : List Char) : List Char := text.takeWhile (· ≠ '\n')

/-- A text from the middle of a line on, with indentation of a width before the lines behind it.
The flags say which of these lines start in the text of a template literal. If the line is blank,
the rest of it is skipped. -/
def reindent (width : Nat) : Bool → List Bool → List Char → List Char
  | _, _, [] => ['\n']
  | skip, flags, c :: rest =>
    if c = '\n' then
      '\n' ::
        if rest = [] then []
        else if flags.headD false then reindent width false flags.tail rest
        else if Text.allBlank (lineOf rest) then reindent width true flags.tail rest
        else List.replicate width ' ' ++ reindent width false flags.tail rest
    else if skip || (c = '\r' && rest.head? = some '\n') then reindent width skip flags rest
    else c :: reindent width false flags rest

/-- A text from the start of a line on, given which lines from this one on start in the text of a
template literal. -/
def reindentLine (width : Nat) (flags : List Bool) (text : List Char) : List Char :=
  if text = [] then []
  else if flags.headD false then reindent width false flags.tail text
  else if Text.allBlank (lineOf text) then reindent width true flags.tail text
  else List.replicate width ' ' ++ reindent width false flags.tail text

section

variable (width : Nat) (skip : Bool) (flags : List Bool) (rest : List Char)

@[simp] theorem reindent_nil : reindent width skip flags [] = ['\n'] := rfl

theorem reindent_lineFeed :
    reindent width skip flags ('\n' :: rest) = '\n' :: reindentLine width flags rest := rfl

theorem reindent_return :
    reindent width false flags ('\r' :: '\n' :: rest) = reindent width false flags ('\n' :: rest) :=
  rfl

theorem reindent_cons {c : Char} (inLine : c ≠ '\n')
    (kept : ¬(c = '\r' ∧ rest.head? = some '\n')) :
    reindent width false flags (c :: rest) = c :: reindent width false flags rest := by
  rw [reindent, if_neg inLine, if_neg (by simpa using kept)]

theorem reindent_skip {c : Char} (inLine : c ≠ '\n') :
    reindent width true flags (c :: rest) = reindent width true flags rest := by
  rw [reindent, if_neg inLine, if_pos (by simp)]

/-- A line of which the rest is skipped. -/
theorem reindent_skip_append {line : List Char} (inLine : '\n' ∉ line) :
    reindent width true flags (line ++ rest) = reindent width true flags rest := by
  induction line with
  | nil => rfl
  | cons c line ih =>
    rw [List.mem_cons, not_or] at inLine
    rw [List.cons_append, reindent_skip width flags _ (Ne.symm inLine.1), ih inLine.2]

/-- A line that is kept, except for a carriage return at its end. -/
theorem reindent_append {line : List Char} (inLine : '\n' ∉ line)
    (kept : ¬(line.getLast? = some '\r' ∧ rest.head? = some '\n')) :
    reindent width false flags (line ++ rest) = line ++ reindent width false flags rest := by
  induction line with
  | nil => rfl
  | cons c line ih =>
    rw [List.mem_cons, not_or] at inLine
    have head : ¬(c = '\r' ∧ (line ++ rest).head? = some '\n') := by
      rintro ⟨rfl, next⟩
      cases line with
      | nil => exact kept ⟨rfl, next⟩
      | cons d line => exact inLine.2 (Option.some.inj next ▸ List.mem_cons_self)
    have behind : ¬(line.getLast? = some '\r' ∧ rest.head? = some '\n') := by
      rintro ⟨last, next⟩
      refine kept ⟨?_, next⟩
      rw [List.getLast?_cons, last]
      rfl
    rw [List.cons_append, reindent_cons width flags _ (Ne.symm inLine.1) head, ih inLine.2 behind]
    rfl

end

/-! ## Lines -/

theorem linesFrom_append {before line rest : List Char} (inLine : '\n' ∉ line) :
    Text.linesFrom before (line ++ rest) = Text.linesFrom (line.reverse ++ before) rest := by
  induction line generalizing before with
  | nil => rfl
  | cons c line ih =>
    rw [List.mem_cons, not_or] at inLine
    rw [List.cons_append, Text.linesFrom, ih inLine.2]
    · simp
    · exact fun eq => absurd eq.symm inLine.1

theorem lines_of_line {line : List Char} (inLine : '\n' ∉ line) (nonempty : line ≠ []) :
    Text.lines line = [line] := by
  have split : Text.linesFrom [] (line ++ []) = Text.linesFrom (line.reverse ++ []) [] :=
    linesFrom_append inLine
  rw [List.append_nil, List.append_nil] at split
  rw [Text.lines, split, Text.linesFrom, List.reverse_reverse]
  simpa using nonempty

theorem lines_append_lineFeed {line rest : List Char} (inLine : '\n' ∉ line) :
    Text.lines (line ++ '\n' :: rest) = Text.closedLine line.reverse :: Text.lines rest := by
  have split : Text.linesFrom [] (line ++ '\n' :: rest) =
      Text.linesFrom (line.reverse ++ []) ('\n' :: rest) := linesFrom_append inLine
  rw [List.append_nil] at split
  rw [Text.lines, split, Text.linesFrom, Text.lines]

/-- A text is one line, or goes on behind the first line feed. -/
theorem exists_line (text : List Char) :
    '\n' ∉ text ∨ ∃ line rest, text = line ++ '\n' :: rest ∧ '\n' ∉ line := by
  induction text with
  | nil => exact .inl List.not_mem_nil
  | cons c text ih =>
    by_cases ended : c = '\n'
    · subst ended
      exact .inr ⟨[], text, rfl, List.not_mem_nil⟩
    · rcases ih with inLine | ⟨line, rest, rfl, inLine⟩
      · exact .inl (by simp [Ne.symm ended, inLine])
      · exact .inr ⟨c :: line, rest, rfl, by simp [Ne.symm ended, inLine]⟩

theorem lineOf_append {line : List Char} (inLine : '\n' ∉ line) (rest : List Char) :
    lineOf (line ++ rest) = line ++ lineOf rest :=
  List.takeWhile_append_of_pos fun c mem => by
    simpa using fun eq : c = '\n' => inLine (eq ▸ mem)

theorem lineOf_cons {c : Char} (inLine : c ≠ '\n') (rest : List Char) :
    lineOf (c :: rest) = c :: lineOf rest :=
  List.takeWhile_cons_of_pos (by simpa using inLine)

@[simp] theorem lineOf_nil : lineOf [] = [] := rfl

@[simp] theorem lineOf_lineFeed (rest : List Char) : lineOf ('\n' :: rest) = [] := by
  simp [lineOf]

/-- The text of a line that a line feed ends is that line up to a carriage return before it. -/
theorem closedLine_eq (line : List Char) :
    line = Text.closedLine line.reverse ++ ['\r'] ∨
      line = Text.closedLine line.reverse ∧ line.getLast? ≠ some '\r' := by
  rcases List.eq_nil_or_concat line with rfl | ⟨before, c, rfl⟩
  · exact .inr ⟨rfl, by simp⟩
  · by_cases isReturn : c = '\r'
    · subst isReturn
      exact .inl (by simp [Text.closedLine])
    · refine .inr ⟨?_, by simpa using isReturn⟩
      rw [List.concat_eq_append, List.reverse_append, List.reverse_singleton, List.singleton_append,
        Text.closedLine]
      · simp
      · exact fun _ eq => absurd (List.cons.inj eq).1 isReturn

theorem reindent_line (width : Nat) (flags : List Bool) {line : List Char} (inLine : '\n' ∉ line)
    (rest : List Char) :
    reindent width false flags (line ++ '\n' :: rest) =
      Text.closedLine line.reverse ++ '\n' :: reindentLine width flags rest := by
  rcases closedLine_eq line with eq | ⟨eq, kept⟩
  · generalize Text.closedLine line.reverse = before at eq ⊢
    subst eq
    rw [List.mem_append, not_or] at inLine
    rw [List.append_assoc, List.singleton_append, reindent_append width flags _ inLine.1 (by simp),
      reindent_return, reindent_lineFeed]
  · rw [reindent_append width flags _ inLine fun both => kept both.1, reindent_lineFeed, ← eq]

theorem allBlank_closedLine (line : List Char) :
    Text.allBlank (Text.closedLine line.reverse) = Text.allBlank line := by
  rcases closedLine_eq line with eq | ⟨eq, -⟩
  · conv_rhs => rw [eq]
    have blank : Text.isBlank '\r' = true := by decide
    simp [Text.allBlank, blank]
  · rw [← eq]

/-! ## Flags -/

/-- The character that a mode has seen ahead. -/
def Mode.expected? : Mode → Option Char
  | .substitution => some '{'
  | .commentOpen => some '*'
  | _ => none

/-- There is a flag for each line feed. -/
theorem length_lineStartsFrom {mode : Mode} {nesting : List Nesting} {text : List Char}
    (seen : ∀ c ∈ mode.expected?, text.head? = some c) :
    (lineStartsFrom mode nesting text).length = text.count '\n' := by
  fun_induction lineStartsFrom mode nesting text <;> simp_all [Mode.expected?]

/-! ## Printed text -/

theorem toList_indentation (depth : Nat) :
    (Text.indentation depth).toList = List.replicate (2 * depth) ' ' := by
  induction depth with
  | zero => rfl
  | succ depth ih =>
    rw [Text.indentation, String.toList_append, ih]
    rfl

theorem toList_verbatimLine (depth : Nat) (line : List Char) (flag : Bool) :
    (verbatimLine depth line flag).toList =
      if flag then line ++ ['\n']
      else if Text.allBlank line then ['\n']
      else List.replicate (2 * depth) ' ' ++ line ++ ['\n'] := by
  unfold verbatimLine
  split
  · simp
  · split
    · rfl
    · simp [toList_indentation]

/-- The lines of a text are printed as `reindentLine` lays them out. -/
theorem flatMap_verbatimLine (depth : Nat) (text : List Char) (flags : List Bool)
    (enough : text.count '\n' < flags.length) :
    (List.zipWith (verbatimLine depth) (Text.lines text) flags).flatMap String.toList =
      reindentLine (2 * depth) flags text := by
  induction flags generalizing text with
  | nil => cases enough
  | cons flag flags ih =>
    rcases exists_line text with inLine | ⟨line, rest, rfl, inLine⟩
    · by_cases empty : text = []
      · subst empty
        rfl
      · -- the last line has no end
        have whole : ∀ skip, reindent (2 * depth) skip flags text =
            if skip then ['\n'] else text ++ ['\n'] := by
          intro skip
          have kept := reindent_append (2 * depth) flags [] inLine (by simp)
          have skipped := reindent_skip_append (2 * depth) flags [] inLine
          rw [List.append_nil] at kept skipped
          cases skip
          · exact kept
          · exact skipped
        have line : lineOf text = text := by
          simpa using lineOf_append inLine []
        rw [lines_of_line inLine empty]
        simp [toList_verbatimLine, reindentLine, empty, line, whole]
    · have fewer : rest.count '\n' < flags.length := by
        simp [List.count_append, List.count_eq_zero.2 inLine] at enough
        exact enough
      have first : lineOf (line ++ '\n' :: rest) = line := by simp [lineOf_append inLine]
      have whole : reindentLine (2 * depth) (flag :: flags) (line ++ '\n' :: rest) =
          (if flag then Text.closedLine line.reverse ++ ['\n']
            else if Text.allBlank line then ['\n']
            else List.replicate (2 * depth) ' ' ++ Text.closedLine line.reverse ++ ['\n']) ++
            reindentLine (2 * depth) flags rest := by
        rw [reindentLine.eq_def _ (flag :: flags), if_neg (by simp), first,
          reindent_skip_append _ _ _ inLine, reindent_line _ _ inLine, reindent_lineFeed]
        cases flag <;> cases Text.allBlank line <;> simp
      rw [lines_append_lineFeed inLine, List.zipWith_cons_cons, List.flatMap_cons,
        ih rest fewer, toList_verbatimLine, allBlank_closedLine, whole]

theorem intercalate_nil_left (texts : List (List Char)) :
    ([] : List Char).intercalate texts = texts.flatten := by
  induction texts with
  | nil => rfl
  | cons text texts ih =>
    cases texts with
    | nil => simp
    | cons next texts => simpa using ih

/-- Script text is printed with its lines laid out by `reindentLine`. -/
theorem toList_printVerbatim (depth : Nat) (code : String) :
    (printVerbatim depth code).toList =
      reindentLine (2 * depth) (templateLineStarts code.toList) code.toList := by
  rw [printVerbatim, String.toList_intercalate, ← flatMap_verbatimLine]
  · exact intercalate_nil_left _
  · rw [templateLineStarts, List.length_cons, length_lineStartsFrom (by simp [Mode.expected?])]
    exact Nat.lt_succ_self _

/-! ## Blanks aside -/

/-- The characters of a text that are not blank. -/
def visible (text : List Char) : List Char := text.filter (!Text.isBlank ·)

@[simp] theorem visible_append (text text' : List Char) :
    visible (text ++ text') = visible text ++ visible text' :=
  List.filter_append ..

theorem visible_cons (c : Char) (rest : List Char) :
    visible (c :: rest) = visible [c] ++ visible rest :=
  visible_append [c] rest

theorem visible_cons_blank {c : Char} (blank : Text.isBlank c = true) (rest : List Char) :
    visible (c :: rest) = visible rest := by
  simp [visible, blank]

@[simp] theorem visible_replicate (width : Nat) : visible (List.replicate width ' ') = [] := by
  induction width with
  | zero => rfl
  | succ width ih => rw [List.replicate_succ, visible_cons_blank (by decide), ih]

/-- A line and what follows it keep their visible characters if they do from its middle on. -/
theorem visible_reindentLine_of {width : Nat} {text : List Char}
    (kept : ∀ skip flags, (skip = true → Text.allBlank (lineOf text) = true) →
      visible (reindent width skip flags text) = visible text) (flags : List Bool) :
    visible (reindentLine width flags text) = visible text := by
  unfold reindentLine
  split
  · rename_i empty
    rw [empty]
  split
  · exact kept _ _ (by simp)
  split
  · rename_i blank
    exact kept _ _ fun _ => blank
  · rw [visible_append, visible_replicate, List.nil_append]
    exact kept _ _ (by simp)

theorem visible_reindent {width : Nat} {text : List Char} (skip : Bool) (flags : List Bool)
    (skips : skip = true → Text.allBlank (lineOf text) = true) :
    visible (reindent width skip flags text) = visible text := by
  induction text generalizing skip flags with
  | nil => rfl
  | cons c rest ih =>
    by_cases ended : c = '\n'
    · subst ended
      rw [reindent_lineFeed, visible_cons, visible_reindentLine_of ih, ← visible_cons]
    cases skip with
    | true =>
      have blank := skips rfl
      rw [lineOf_cons ended, Text.allBlank, List.all_cons, Bool.and_eq_true] at blank
      rw [reindent_skip _ _ _ ended, visible_cons_blank blank.1]
      exact ih _ _ fun _ => blank.2
    | false =>
      -- a carriage return before a line feed is dropped, and it is blank
      by_cases dropped : c = '\r' ∧ rest.head? = some '\n'
      · obtain ⟨rfl, next⟩ := dropped
        obtain ⟨rest, rfl⟩ := List.head?_eq_some_iff.1 next
        rw [reindent_return, visible_cons_blank (by decide)]
        exact ih _ _ (by simp)
      · rw [reindent_cons _ _ _ ended dropped, visible_cons, ih _ _ (by simp), ← visible_cons]

/-- Printing script text leaves all of its characters but blanks as they are. -/
theorem visible_printVerbatim (depth : Nat) (code : String) :
    visible (printVerbatim depth code).toList = visible code.toList := by
  rw [toList_printVerbatim]
  exact visible_reindentLine_of visible_reindent _

end ReactiveMarkup.Emission
