import ReactiveMarkup.Proofs.FollowedNesting
import ReactiveMarkup.Proofs.ReindentedLines

/-!
# Blanks and comments of reindented code

The blanks and comments between two tokens stay blanks and comments when the lines of code are
indented anew, and lead to the same token (`leadsTo_reindent`). The scanner follows them, unless a
line comment ends with a line end that is no line feed: it takes the comment to go on then.
-/

namespace ReactiveMarkup.Emission

open Script

/-- Whether each line comment in some blanks and comments ends with a line feed, or with a carriage
return and a line feed, or with the text. -/
def lineCommentsFit : GapMode → List Char → Bool
  | _, [] => true
  | .blank, c :: rest =>
    if c = '/' && rest.head? = some '/' then lineCommentsFit .line rest
    else if c = '/' && rest.head? = some '*' then lineCommentsFit .opening rest
    else lineCommentsFit .blank rest
  | .line, c :: rest =>
    if c = '\n' then lineCommentsFit .blank rest
    else if isLineEnd c then c = '\r' && rest.head? = some '\n' && lineCommentsFit .line rest
    else lineCommentsFit .line rest
  | .opening, _ :: rest => lineCommentsFit (.block false) rest
  | .block star, c :: rest =>
    if star && c = '/' then lineCommentsFit .blank rest
    else lineCommentsFit (.block (c = '*')) rest

/-- How the scanner reads on where the lexer is between tokens. -/
def gapMode : GapMode → Mode
  | .blank => .nested
  | .line => .lineComment
  | .opening => .commentOpen
  | .block star => .comment star

/-- Blanks and comments lead from a text to another. -/
def LeadsTo (mode : GapMode) (text behind : List Char) : Prop :=
  ∀ newLine index, (skipGap mode newLine index text).closed = true ∧
    (skipGap mode newLine index text).stop.rest = behind

/-- Code with its lines indented anew, from the middle of a line on. -/
def reindented (width : Nat) (nesting : List Nesting) (text : List Char) : List Char :=
  reindent width false (lineStartsFrom .nested nesting text) text

/-- What blanks and comments lead to in code that is indented anew, if they led to a text before.
The line feed at the end is skipped. -/
def reindentedBehind (width : Nat) (nesting : List Nesting) (text : List Char) : List Char :=
  if text = [] then [] else reindented width nesting text

/-! ## Steps -/

section

variable {mode mode' : GapMode} {text behind : List Char}

theorem LeadsTo.of_step {c : Char}
    (step : ∀ newLine index, ∃ newLine', skipGap mode newLine index (c :: text) =
      skipGap mode' newLine' (index + 1) text)
    (leads : LeadsTo mode' text behind) : LeadsTo mode (c :: text) behind := by
  intro newLine index
  obtain ⟨newLine', eq⟩ := step newLine index
  rw [eq]
  exact leads newLine' (index + 1)

theorem LeadsTo.blank {c : Char} (isBlank : isLineEnd c = true ∨ isSpace c = true)
    (leads : LeadsTo .blank text behind) : LeadsTo .blank (c :: text) behind := by
  refine .of_step (fun newLine index => ?_) leads
  by_cases lineEnd : isLineEnd c = true
  · exact ⟨true, by rw [skipGap, if_pos lineEnd]⟩
  · exact ⟨newLine, by rw [skipGap, if_neg lineEnd, if_pos (isBlank.resolve_left lineEnd)]⟩

theorem LeadsTo.block {star : Bool} {c : Char} (inside : ¬(star = true ∧ c = '/'))
    (leads : LeadsTo (.block (c = '*')) text behind) :
    LeadsTo (.block star) (c :: text) behind := by
  refine .of_step (fun newLine index => ⟨newLine || isLineEnd c, ?_⟩) leads
  rw [skipGap, if_neg (by simpa using inside)]

/-- Whether a line may start where the lexer is. -/
def StartsLine : GapMode → Prop
  | .blank => True
  | .block star => star = false
  | _ => False

theorem LeadsTo.pad (starts : StartsLine mode) (width : Nat) (leads : LeadsTo mode text behind) :
    LeadsTo mode (List.replicate width ' ' ++ text) behind := by
  induction width with
  | zero => exact leads
  | succ width ih =>
    rw [List.replicate_succ, List.cons_append]
    cases mode with
    | blank => exact ih.blank (.inr (by decide))
    | block star =>
      obtain rfl : star = false := starts
      exact ih.block (by simp)
    | line => cases starts
    | opening => cases starts

/-- A line leads where it leads from its middle on. -/
theorem LeadsTo.line (starts : StartsLine mode) {flags : List Bool} {width : Nat}
    (inCode : flags.headD false = false) (ended : text = [] → LeadsTo mode [] behind)
    (leads : ∀ skip, (skip = true → Text.allBlank (lineOf text) = true) →
      LeadsTo mode (reindent width skip flags.tail text) behind) :
    LeadsTo mode (reindentLine width flags text) behind := by
  unfold reindentLine
  split
  · rename_i empty
    exact ended empty
  rw [if_neg (by rw [inCode]; decide)]
  split
  · rename_i blank
    exact leads true fun _ => blank
  · exact (leads false (by simp)).pad starts width

end

/-! ## Lines -/

/-- Indenting the lines behind it leaves a line as it is. -/
theorem sameLine_reindent (width : Nat) (flags : List Bool) (text : List Char) :
    SameLine text (reindent width false flags text) := by
  induction text with
  | nil => exact ⟨[], [], ['\n'], rfl, rfl, rfl, rfl⟩
  | cons c rest ih =>
    by_cases lineEnd : isLineEnd c = true
    · refine ⟨[], c :: rest, reindent width false flags (c :: rest), rfl, rfl, lineEnd, ?_⟩
      by_cases lineFeed : c = '\n'
      · subst lineFeed
        rfl
      · by_cases dropped : c = '\r' ∧ rest.head? = some '\n'
        · obtain ⟨rfl, next⟩ := dropped
          obtain ⟨rest, rfl⟩ := List.head?_eq_some_iff.1 next
          rfl
        · rw [reindent_cons _ _ _ lineFeed dropped]
          exact lineEnd
    · have inLine : c ≠ '\n' ∧ c ≠ '\r' := by
        constructor <;> rintro rfl <;> exact lineEnd rfl
      rw [reindent_cons _ _ _ inLine.1 fun dropped => inLine.2 dropped.1]
      exact ih.cons

theorem head?_reindent {width : Nat} {flags : List Bool} {text : List Char} {c : Char}
    (inLine : isLineEnd c = false) (head : text.head? = some c) :
    (reindent width false flags text).head? = some c := by
  rcases (sameLine_reindent width flags text).head with same | ⟨ends, -⟩
  · rw [← same, head]
  · obtain ⟨rest, rfl⟩ := List.head?_eq_some_iff.1 head
    rw [atLineEnd, inLine] at ends
    cases ends

theorem isSolid_of_sameLine {c : Char} {rest rest' : List Char} (same : SameLine rest rest')
    (solid : isSolid (c :: rest) = true) : isSolid (c :: rest') = true := by
  have never : ∀ d ∈ ['/', '*'], lineEnds.all (fun e => (e == d) = false) = true :=
    List.all_iff_forall_prop.1 (by decide)
  have heads : ∀ d ∈ ['/', '*'], (rest.head? = some d ↔ rest'.head? = some d) := by
    intro d mem
    have any := head_any_of_sameLine (List.all_iff_forall_prop.1 (never d mem)) same
    have some_iff : ∀ text : List Char, text.head? = some d ↔ text.head?.any (· == d) = true := by
      intro text
      cases text <;> simp
    rw [some_iff, some_iff, any]
  simpa only [isSolid, heads '/' (by simp), heads '*' (by simp)] using solid

/-- A blank character may stand between tokens. -/
theorem isSpace_of_isBlank {c : Char} (blank : Text.isBlank c = true) :
    isLineEnd c = true ∨ isSpace c = true := by
  simp only [Text.isBlank, Text.blankRanges, List.any_cons, List.any_nil, Bool.or_false,
    Bool.or_eq_true, Bool.and_eq_true, decide_eq_true_eq] at blank
  by_cases space : isSpace c = true
  · exact .inr space
  · left
    simp only [isSpace, spaceRanges, Text.inRanges, Bool.if_false_left, Bool.if_true_left,
      Bool.and_eq_true, Bool.or_eq_true, Bool.not_eq_true', decide_eq_true_eq,
      decide_eq_false_iff_not, Bool.or_false] at space
    have code : c.toNat = 0x000A ∨ c.toNat = 0x000D ∨ c.toNat = 0x2028 ∨ c.toNat = 0x2029 := by
      omega
    have char : ∀ d : Char, c.toNat = d.toNat → c = d := fun d => Char.toNat_inj.1
    rcases code with eq | eq | eq | eq
    · rw [char '\n' eq]; rfl
    · rw [char '\r' eq]; rfl
    · rw [char '\u2028' eq]; rfl
    · rw [char '\u2029' eq]; rfl

/-! ## Gaps -/

theorem isSolid_cons {c : Char} {rest : List Char} (lineEnd : ¬isLineEnd c = true)
    (space : ¬isSpace c = true) (line : ¬(c = '/' && rest.head? = some '/') = true)
    (block : ¬(c = '/' && rest.head? = some '*') = true) : isSolid (c :: rest) = true := by
  simp only [Bool.not_eq_true] at lineEnd space
  simp only [isSolid, lineEnd, space]
  grind

/-- Where closed blanks and comments end, neither a blank nor a comment starts. -/
theorem isSolid_skipGap {mode : GapMode} {newLine : Bool} {index : Nat} {text : List Char}
    (closed : (skipGap mode newLine index text).closed = true) :
    isSolid (skipGap mode newLine index text).stop.rest = true := by
  fun_induction skipGap mode newLine index text with
  | case1 | case2 => rfl
  | case3 | case4 => cases closed
  | case5 _ _ _ _ _ ih | case6 _ _ _ _ _ _ ih | case7 _ _ _ _ _ _ _ ih | case8 _ _ _ _ _ _ _ _ ih
  | case10 _ _ _ _ _ ih | case11 _ _ _ _ _ ih | case12 _ _ _ _ ih | case13 _ _ _ _ _ _ ih
  | case14 _ _ _ _ _ _ ih => exact ih closed
  | case9 newLine index c rest lineEnd space line block =>
    exact isSolid_cons lineEnd space line block

theorem skipGap_suffix (mode : GapMode) (newLine : Bool) (index : Nat) (text : List Char) :
    (skipGap mode newLine index text).stop.rest <:+ text := by
  fun_induction skipGap mode newLine index text with
  | case1 | case2 | case3 | case4 | case9 => exact List.suffix_refl _
  | case5 _ _ _ _ _ ih | case6 _ _ _ _ _ _ ih | case7 _ _ _ _ _ _ _ ih | case8 _ _ _ _ _ _ _ _ ih
  | case10 _ _ _ _ _ ih | case11 _ _ _ _ _ ih | case12 _ _ _ _ ih | case13 _ _ _ _ _ _ ih
  | case14 _ _ _ _ _ _ ih => exact ih.trans (List.suffix_cons _ _)

/-- Inside a comment a character is skipped. -/
theorem skipGap_suffix_of_ne {mode : GapMode} (inside : mode ≠ .blank) (newLine : Bool)
    (index : Nat) (c : Char) (rest : List Char) :
    (skipGap mode newLine index (c :: rest)).stop.rest <:+ rest := by
  cases mode with
  | blank => exact absurd rfl inside
  | line =>
    rw [skipGap]
    split <;> exact skipGap_suffix _ _ _ _
  | opening =>
    rw [skipGap]
    exact skipGap_suffix _ _ _ _
  | block star =>
    rw [skipGap]
    split <;> exact skipGap_suffix _ _ _ _

/-- The first character of a text is that of the gap before what a later place leads to. -/
theorem exists_gap_of_cons {c : Char} {rest gap behind : List Char} (suffix : behind <:+ rest)
    (split : c :: rest = gap ++ behind) : ∃ gap', gap = c :: gap' ∧ rest = gap' ++ behind := by
  obtain ⟨gap', rfl⟩ := suffix
  rw [← List.cons_append] at split
  exact ⟨gap', (List.append_cancel_right split).symm, rfl⟩

/-- The mark behind the slash of a comment stands in the gap. -/
theorem exists_gap_of_comment {mode : GapMode} (inside : mode ≠ .blank) {newLine : Bool}
    {index : Nat} {c mark : Char} {rest gap : List Char} (next : rest.head? = some mark)
    (split : c :: rest = gap ++ (skipGap mode newLine index rest).stop.rest) :
    ∃ gap', gap = c :: mark :: gap' ∧
      rest = mark :: gap' ++ (skipGap mode newLine index rest).stop.rest := by
  obtain ⟨rest, rfl⟩ := List.head?_eq_some_iff.1 next
  obtain ⟨gap, rfl, split'⟩ := exists_gap_of_cons (skipGap_suffix _ _ _ _) split
  obtain ⟨gap, rfl, -⟩ := exists_gap_of_cons (skipGap_suffix_of_ne inside _ _ _ _) split'
  exact ⟨gap, rfl, split'⟩

section

variable {width braces : Nat} {outer : List Nesting} {c : Char} {rest behind : List Char}

/-- The place behind some blanks in code that is indented anew, wherever in a line the lexer is. -/
def LeadsAnywhere (width : Nat) (nesting : List Nesting) (mode : GapMode)
    (text behind : List Char) : Prop :=
  ∀ skip, (skip = true → StartsLine mode ∧ Text.allBlank (lineOf text) = true) →
    LeadsTo mode (reindent width skip (lineStartsFrom (gapMode mode) nesting text) text) behind

/-- A line feed is followed by what its line leads to. -/
theorem LeadsAnywhere.lineFeed {mode mode' : GapMode} {nesting : List Nesting}
    (starts : StartsLine mode')
    (step : ∀ text newLine index, ∃ newLine', skipGap mode newLine index ('\n' :: text) =
      skipGap mode' newLine' (index + 1) text)
    (scan : lineStartsFrom (gapMode mode) nesting ('\n' :: rest) =
      false :: lineStartsFrom (gapMode mode') nesting rest)
    (ended : rest = [] → LeadsTo mode' [] behind)
    (leads : LeadsAnywhere width nesting mode' rest behind) :
    LeadsAnywhere width nesting mode ('\n' :: rest) behind := by
  intro skip _
  rw [scan, reindent_lineFeed]
  refine .of_step (step _) (.line starts rfl ended fun skip skips => ?_)
  exact leads skip fun isSkip => ⟨starts, skips isSkip⟩

/-- A character that is skipped leads where what follows it leads. -/
theorem LeadsAnywhere.skipped {mode mode' : GapMode} {nesting : List Nesting} (inLine : c ≠ '\n')
    (scan : lineStartsFrom (gapMode mode) nesting (c :: rest) =
      lineStartsFrom (gapMode mode') nesting rest)
    (skips : StartsLine mode → Text.isBlank c = true → mode' = mode)
    (dropped : c = '\r' → ∀ text, LeadsTo mode' ('\n' :: text) behind →
      LeadsTo mode ('\n' :: text) behind)
    (kept : ∀ flags, LeadsTo mode' (reindent width false flags rest) behind →
      LeadsTo mode (c :: reindent width false flags rest) behind)
    (leads : LeadsAnywhere width nesting mode' rest behind) :
    LeadsAnywhere width nesting mode (c :: rest) behind := by
  intro skip skipping
  rw [scan]
  cases skip with
  | true =>
    obtain ⟨starts, blank⟩ := skipping rfl
    rw [lineOf_cons inLine, Text.allBlank, List.all_cons, Bool.and_eq_true] at blank
    obtain rfl := skips starts blank.1
    rw [reindent_skip _ _ _ inLine]
    exact leads true fun _ => ⟨starts, blank.2⟩
  | false =>
    have here := leads false (by simp)
    by_cases isDropped : c = '\r' ∧ rest.head? = some '\n'
    · obtain ⟨rfl, next⟩ := isDropped
      obtain ⟨rest, rfl⟩ := List.head?_eq_some_iff.1 next
      rw [reindent_return]
      exact dropped rfl _ here
    · rw [reindent_cons _ _ _ inLine isDropped]
      exact kept _ here

theorem isSpace_marks : ∀ c ∈ marks, isSpace c = false :=
  List.all_iff_forall_prop.1 (by decide)

/-- A blank character between tokens other than a line feed means nothing to the scanner. -/
theorem not_mem_marks_of_blank (isBlank : isLineEnd c = true ∨ isSpace c = true)
    (inLine : c ≠ '\n') : c ∉ marks := by
  rcases isBlank with lineEnd | space
  · intro mem
    have outside : ∀ c ∈ marks, isLineEnd c = true → c = '\n' :=
      List.all_iff_forall_prop.1 (by decide)
    exact inLine (outside c mem lineEnd)
  · exact not_mem_marks isSpace_marks space

theorem LeadsAnywhere.blank (isBlank : isLineEnd c = true ∨ isSpace c = true)
    (ended : rest = [] → behind = [])
    (leads : LeadsAnywhere width (.code braces :: outer) .blank rest behind) :
    LeadsAnywhere width (.code braces :: outer) .blank (c :: rest) behind := by
  by_cases lineFeed : c = '\n'
  · subst lineFeed
    refine .lineFeed (show StartsLine .blank from trivial) (fun _ _ _ => ⟨true, rfl⟩) rfl ?_ leads
    intro empty
    rw [ended empty]
    exact fun _ _ => ⟨rfl, rfl⟩
  · have scan : lineStartsFrom (gapMode .blank) (.code braces :: outer) (c :: rest) =
        lineStartsFrom (gapMode .blank) (.code braces :: outer) rest :=
      lineStartsFrom_plain _ _ _ (not_mem_marks_of_blank isBlank lineFeed)
    exact .skipped lineFeed scan (fun _ _ => rfl) (fun _ _ leads => leads)
      (fun _ leads => leads.blank isBlank) leads

/-! ### Comments -/

/-- A comment starts with a slash and another mark. -/
theorem LeadsAnywhere.commentStart {mode : GapMode} {mark : Char} (next : rest.head? = some mark)
    (inLine : isLineEnd mark = false)
    (opens : ∀ text newLine index, text.head? = some mark →
      skipGap .blank newLine index ('/' :: text) = skipGap mode newLine (index + 1) text)
    (scan : lineStartsFrom (gapMode .blank) (.code braces :: outer) ('/' :: rest) =
      lineStartsFrom (gapMode mode) (.code braces :: outer) rest)
    (leads : LeadsAnywhere width (.code braces :: outer) mode rest behind) :
    LeadsAnywhere width (.code braces :: outer) .blank ('/' :: rest) behind :=
  .skipped (by decide) scan (fun _ blank => absurd blank (by decide))
    (fun isReturn => absurd isReturn (by decide))
    (fun _ here => .of_step
      (fun newLine index => ⟨newLine, opens _ _ _ (head?_reindent inLine next)⟩) here)
    leads

theorem LeadsAnywhere.lineStart (next : rest.head? = some '/')
    (leads : LeadsAnywhere width (.code braces :: outer) .line rest behind) :
    LeadsAnywhere width (.code braces :: outer) .blank ('/' :: rest) behind := by
  refine .commentStart next (by decide) (fun text newLine index next => ?_) ?_ leads
  · simp [skipGap, next, isLineEnd, show isSpace '/' = false by decide]
  · simp [lineStartsFrom, gapMode, next]

theorem LeadsAnywhere.blockStart (next : rest.head? = some '*')
    (leads : LeadsAnywhere width (.code braces :: outer) .opening rest behind) :
    LeadsAnywhere width (.code braces :: outer) .blank ('/' :: rest) behind := by
  refine .commentStart next (by decide) (fun text newLine index next => ?_) ?_ leads
  · simp [skipGap, next, isLineEnd, show isSpace '/' = false by decide]
  · simp [lineStartsFrom, gapMode, next]

theorem LeadsAnywhere.line (inLine : ¬isLineEnd c = true)
    (leads : LeadsAnywhere width (.code braces :: outer) .line rest behind) :
    LeadsAnywhere width (.code braces :: outer) .line (c :: rest) behind := by
  have plain : c ≠ '\n' ∧ c ≠ '\r' := by constructor <;> rintro rfl <;> exact inLine rfl
  have scan : lineStartsFrom (gapMode .line) (.code braces :: outer) (c :: rest) =
      lineStartsFrom (gapMode .line) (.code braces :: outer) rest := by
    simp [lineStartsFrom, gapMode, plain]
  exact .skipped plain.1 scan (fun starts => starts.elim) (fun isReturn => absurd isReturn plain.2)
    (fun _ here => .of_step (fun newLine _ => ⟨newLine, by rw [skipGap, if_neg inLine]⟩) here) leads

theorem LeadsAnywhere.lineEnd (ended : rest = [] → behind = [])
    (leads : LeadsAnywhere width (.code braces :: outer) .blank rest behind) :
    LeadsAnywhere width (.code braces :: outer) .line ('\n' :: rest) behind := by
  refine .lineFeed (show StartsLine .blank from trivial) (fun _ _ _ => ⟨true, rfl⟩) rfl ?_ leads
  intro empty
  rw [ended empty]
  exact fun _ _ => ⟨rfl, rfl⟩

/-- At a carriage return the scanner is still in a comment that it leaves with the line feed. -/
theorem LeadsAnywhere.lineReturn
    (leads : LeadsAnywhere width (.code braces :: outer) .blank ('\n' :: rest) behind) :
    LeadsAnywhere width (.code braces :: outer) .line ('\r' :: '\n' :: rest) behind := by
  have scan : lineStartsFrom (gapMode .line) (.code braces :: outer) ('\r' :: '\n' :: rest) =
      lineStartsFrom (gapMode .blank) (.code braces :: outer) ('\n' :: rest) := rfl
  exact .skipped (by decide) scan (fun starts => starts.elim)
    (fun _ _ here newLine index => here newLine index)
    (fun _ here => .of_step (fun _ _ => ⟨true, rfl⟩) here) leads

theorem LeadsAnywhere.opening
    (leads : LeadsAnywhere width (.code braces :: outer) (.block false) rest behind) :
    LeadsAnywhere width (.code braces :: outer) .opening ('*' :: rest) behind := by
  have scan : lineStartsFrom (gapMode .opening) (.code braces :: outer) ('*' :: rest) =
      lineStartsFrom (gapMode (.block false)) (.code braces :: outer) rest := rfl
  exact .skipped (by decide) scan (fun starts => starts.elim)
    (fun isReturn => absurd isReturn (by decide))
    (fun _ here => .of_step (fun newLine _ => ⟨newLine, rfl⟩) here) leads

theorem LeadsAnywhere.closing
    (leads : LeadsAnywhere width (.code braces :: outer) .blank rest behind) :
    LeadsAnywhere width (.code braces :: outer) (.block true) ('/' :: rest) behind := by
  have scan : lineStartsFrom (gapMode (.block true)) (.code braces :: outer) ('/' :: rest) =
      lineStartsFrom (gapMode .blank) (.code braces :: outer) rest := rfl
  exact .skipped (by decide) scan (fun _ blank => absurd blank (by decide))
    (fun isReturn => absurd isReturn (by decide))
    (fun _ here => .of_step (fun newLine _ => ⟨newLine, rfl⟩) here) leads

theorem LeadsAnywhere.block {star : Bool} (inside : ¬(star && c = '/') = true) (more : rest ≠ [])
    (leads : LeadsAnywhere width (.code braces :: outer) (.block (c = '*')) rest behind) :
    LeadsAnywhere width (.code braces :: outer) (.block star) (c :: rest) behind := by
  by_cases lineFeed : c = '\n'
  · subst lineFeed
    exact .lineFeed (show StartsLine (.block false) from rfl)
      (fun _ newLine _ => ⟨newLine || true, by simp [skipGap, isLineEnd]⟩)
      (by simp [lineStartsFrom, gapMode]) (fun empty => absurd empty more) leads
  · have scan : lineStartsFrom (gapMode (.block star)) (.code braces :: outer) (c :: rest) =
        lineStartsFrom (gapMode (.block (c = '*'))) (.code braces :: outer) rest := by
      simp [lineStartsFrom, gapMode, lineFeed, inside]
    refine .skipped lineFeed scan (fun starts blank => ?_) ?_ (fun _ here => ?_) leads
    · obtain rfl : star = false := starts
      have other : c ≠ '*' := by
        rintro rfl
        cases blank
      rw [decide_eq_false other]
    · rintro rfl text here newLine index
      have same : skipGap (.block star) newLine index ('\n' :: text) =
          skipGap (.block false) newLine index ('\n' :: text) := by simp [skipGap]
      rw [same]
      exact here newLine index
    · exact here.block (by simpa using inside)

/-! ### The token behind them -/

/-- A token that starts on a line stays where it is on that line. -/
theorem LeadsAnywhere.solid (solid : isSolid (c :: rest) = true) :
    LeadsAnywhere width (.code braces :: outer) .blank (c :: rest)
      (reindentedBehind width (.code braces :: outer) (c :: rest)) := by
  have plain : isLineEnd c = false ∧ isSpace c = false := by
    simp only [isSolid, Bool.and_eq_true, Bool.not_eq_true'] at solid
    exact solid.1
  have inLine : c ≠ '\n' ∧ c ≠ '\r' := by
    constructor <;> rintro rfl <;> cases plain.1
  intro skip skips
  cases skip with
  | true =>
    have blank := (skips rfl).2
    rw [lineOf_cons inLine.1, Text.allBlank, List.all_cons, Bool.and_eq_true] at blank
    rcases isSpace_of_isBlank blank.1 with lineEnd | space
    · rw [plain.1] at lineEnd
      cases lineEnd
    · rw [plain.2] at space
      cases space
  | false =>
    rw [reindentedBehind, if_neg (by simp), reindented, gapMode,
      reindent_cons _ _ _ inLine.1 fun dropped => inLine.2 dropped.1]
    intro newLine index
    rw [skipGap_solid (isSolid_of_sameLine (sameLine_reindent _ _ _) solid)]
    exact ⟨rfl, rfl⟩

end

/-- Blanks and comments of code that is indented anew lead to the token that they led to. -/
theorem leadsTo_reindent (width braces : Nat) (outer : List Nesting) {mode : GapMode}
    {newLine : Bool} {index : Nat} {text gap : List Char}
    (closed : (skipGap mode newLine index text).closed = true)
    (opening : mode = .opening → text.head? = some '*')
    (split : text = gap ++ (skipGap mode newLine index text).stop.rest)
    (fits : lineCommentsFit mode gap = true) :
    LeadsAnywhere width (.code braces :: outer) mode text
      (reindentedBehind width (.code braces :: outer)
        (skipGap mode newLine index text).stop.rest) := by
  have ended : ∀ {mode newLine index rest}, rest = [] →
      reindentedBehind width (.code braces :: outer) (skipGap mode newLine index rest).stop.rest =
        [] := by
    rintro mode newLine index _ rfl
    cases mode <;> rfl
  fun_induction skipGap mode newLine index text generalizing gap with
  | case1 newLine index => exact fun _ _ _ _ => ⟨rfl, rfl⟩
  | case2 newLine index => exact fun _ _ _ _ => ⟨rfl, rfl⟩
  | case3 newLine index => cases closed
  | case4 star newLine index => cases closed
  | case5 newLine index c rest lineEnd ih =>
    obtain ⟨gap, rfl, split'⟩ := exists_gap_of_cons (skipGap_suffix _ _ _ _) split
    have noSlash : c ≠ '/' := by
      rintro rfl
      cases lineEnd
    exact .blank (.inl lineEnd) ended
      (ih closed (by simp) split' (by simpa [lineCommentsFit, noSlash] using fits))
  | case6 newLine index c rest lineEnd space ih =>
    obtain ⟨gap, rfl, split'⟩ := exists_gap_of_cons (skipGap_suffix _ _ _ _) split
    have noSlash : c ≠ '/' := by
      rintro rfl
      revert space
      decide
    exact .blank (.inr space) ended
      (ih closed (by simp) split' (by simpa [lineCommentsFit, noSlash] using fits))
  | case7 newLine index c rest lineEnd space comment ih =>
    obtain ⟨rfl, next⟩ : c = '/' ∧ rest.head? = some '/' := by simpa using comment
    obtain ⟨gap, rfl, split'⟩ := exists_gap_of_comment (by simp) next split
    exact .lineStart next (ih closed (by simp) split' (by simpa [lineCommentsFit] using fits))
  | case8 newLine index c rest lineEnd space line comment ih =>
    obtain ⟨rfl, next⟩ : c = '/' ∧ rest.head? = some '*' := by simpa using comment
    obtain ⟨gap, rfl, split'⟩ := exists_gap_of_comment (by simp) next split
    exact .blockStart next
      (ih closed (fun _ => next) split' (by simpa [lineCommentsFit] using fits))
  | case9 newLine index c rest lineEnd space line block =>
    exact .solid (isSolid_cons lineEnd space line block)
  | case10 newLine index c rest lineEnd ih =>
    obtain ⟨gap, rfl, split'⟩ := exists_gap_of_cons (skipGap_suffix _ _ _ _) split
    by_cases lineFeed : c = '\n'
    · subst lineFeed
      exact .lineEnd ended (ih closed (by simp) split' (by simpa [lineCommentsFit] using fits))
    · -- of the other line ends, only a carriage return before a line feed fits
      simp only [lineCommentsFit, lineFeed, lineEnd, if_false, if_true, Bool.and_eq_true,
        decide_eq_true_eq] at fits
      obtain ⟨⟨rfl, next⟩, fits⟩ := fits
      obtain ⟨gap, rfl⟩ := List.head?_eq_some_iff.1 next
      have leads := ih closed (by simp) split' (by simpa [lineCommentsFit] using fits)
      obtain ⟨rest, rfl⟩ : ∃ more, rest = '\n' :: more := ⟨_, split'⟩
      exact .lineReturn leads
  | case11 newLine index c rest inLine ih =>
    obtain ⟨gap, rfl, split'⟩ := exists_gap_of_cons (skipGap_suffix _ _ _ _) split
    have lineFeed : c ≠ '\n' := by
      rintro rfl
      exact inLine rfl
    exact .line inLine
      (ih closed (by simp) split' (by simpa [lineCommentsFit, lineFeed, inLine] using fits))
  | case12 newLine index c rest ih =>
    obtain ⟨gap, rfl, split'⟩ := exists_gap_of_cons (skipGap_suffix _ _ _ _) split
    obtain rfl : c = '*' := Option.some.inj (opening rfl)
    exact .opening (ih closed (by simp) split' fits)
  | case13 star newLine index c rest closes ih =>
    obtain ⟨gap, rfl, split'⟩ := exists_gap_of_cons (skipGap_suffix _ _ _ _) split
    obtain ⟨rfl, rfl⟩ : star = true ∧ c = '/' := by simpa using closes
    exact .closing (ih closed (by simp) split' fits)
  | case14 star newLine index c rest inside ih =>
    obtain ⟨gap, rfl, split'⟩ := exists_gap_of_cons (skipGap_suffix _ _ _ _) split
    have more : rest ≠ [] := by
      rintro rfl
      cases closed
    exact .block inside more
      (ih closed (by simp) split' (by simpa [lineCommentsFit, inside] using fits))

end ReactiveMarkup.Emission
