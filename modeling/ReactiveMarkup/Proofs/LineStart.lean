import ReactiveMarkup.Proofs.FollowedNesting
import ReactiveMarkup.Proofs.ReindentedLines

/-!
# Lines that start inside template literals

`Lexed` is the lexical grammar of code: string literals, both kinds of comments, braces in pairs,
and template literals with substitutions, which are code again. Along with a text it says of the
position behind each character whether it lies in the text of a template literal, from behind a
backtick or a substitution up to the next one. For all code of this grammar, `templateLineStarts`
says of each line whether its start is such a position (`templateLineStarts_exact`).

The scanner is followed stretch by stretch (`Leads`): one step lemma for each rule of the grammar,
and the induction puts them together.
-/

namespace ReactiveMarkup.Emission

/-! ## The lexical grammar -/

/-- What a stretch of a text is. -/
inductive Stretch
  /-- Code, either all of it or what stands between two braces. -/
  | code (outermost : Bool)
  /-- The inside of a string literal between these quotes. -/
  | quoted (quote : Char)
  /-- The inside of a comment between stars. -/
  | comment
  /-- The inside of a template literal. -/
  | template

/-- The texts of a stretch. Each character comes with a mark: whether the position behind it lies in
the text of a template literal. Lines end with line feeds. -/
inductive Lexed : Stretch → List Char → List Bool → Prop
  | nil {stretch : Stretch} : Lexed stretch [] []
  | plain {outermost : Bool} {c : Char} {rest : List Char} {marks : List Bool}
      (isPlain : c ∉ ['"', '\'', '`', '{', '}', '/'])
      (behind : Lexed (.code outermost) rest marks) :
      Lexed (.code outermost) (c :: rest) (false :: marks)
  | slash {outermost : Bool} {rest : List Char} {marks : List Bool}
      (alone : rest.head? ≠ some '/' ∧ rest.head? ≠ some '*')
      (behind : Lexed (.code outermost) rest marks) :
      Lexed (.code outermost) ('/' :: rest) (false :: marks)
  | string {outermost : Bool} {quote : Char} {body rest : List Char} {inside marks : List Bool}
      (isQuote : quote = '"' ∨ quote = '\'') (inner : Lexed (.quoted quote) body inside)
      (behind : Lexed (.code outermost) rest marks) :
      Lexed (.code outermost) (quote :: (body ++ quote :: rest))
        (false :: (inside ++ false :: marks))
  | lineComment {outermost : Bool} {body rest : List Char} {marks : List Bool}
      (inLine : '\n' ∉ body)
      (ended : rest.head? = some '\n' ∨ outermost = true ∧ rest = [])
      (behind : Lexed (.code outermost) rest marks) :
      Lexed (.code outermost) ('/' :: '/' :: (body ++ rest))
        (false :: false :: (body.map (fun _ => false) ++ marks))
  | blockComment {outermost : Bool} {body rest : List Char} {inside marks : List Bool}
      (inner : Lexed .comment body inside) (behind : Lexed (.code outermost) rest marks) :
      Lexed (.code outermost) ('/' :: '*' :: (body ++ '*' :: '/' :: rest))
        (false :: false :: (inside ++ false :: false :: marks))
  | braces {outermost : Bool} {body rest : List Char} {inside marks : List Bool}
      (inner : Lexed (.code false) body inside) (behind : Lexed (.code outermost) rest marks) :
      Lexed (.code outermost) ('{' :: (body ++ '}' :: rest)) (false :: (inside ++ false :: marks))
  | literal {outermost : Bool} {body rest : List Char} {inside marks : List Bool}
      (inner : Lexed .template body inside) (behind : Lexed (.code outermost) rest marks) :
      Lexed (.code outermost) ('`' :: (body ++ '`' :: rest)) (true :: (inside ++ false :: marks))
  | quotedChar {quote c : Char} {rest : List Char} {marks : List Bool}
      (isPlain : c ∉ [quote, '\\', '\n']) (behind : Lexed (.quoted quote) rest marks) :
      Lexed (.quoted quote) (c :: rest) (false :: marks)
  | quotedEscape {quote c : Char} {rest : List Char} {marks : List Bool}
      (behind : Lexed (.quoted quote) rest marks) :
      Lexed (.quoted quote) ('\\' :: c :: rest) (false :: false :: marks)
  | commentChar {c : Char} {rest : List Char} {marks : List Bool}
      (goes_on : c = '*' → rest.head? ≠ some '/') (behind : Lexed .comment rest marks) :
      Lexed .comment (c :: rest) (false :: marks)
  | templateChar {c : Char} {rest : List Char} {marks : List Bool} (isPlain : c ∉ ['`', '\\'])
      (opens_none : c = '$' → rest.head? ≠ some '{') (behind : Lexed .template rest marks) :
      Lexed .template (c :: rest) (true :: marks)
  | templateEscape {c : Char} {rest : List Char} {marks : List Bool}
      (behind : Lexed .template rest marks) :
      Lexed .template ('\\' :: c :: rest) (true :: true :: marks)
  | substitution {body rest : List Char} {inside marks : List Bool}
      (inner : Lexed (.code false) body inside) (behind : Lexed .template rest marks) :
      Lexed .template ('$' :: '{' :: (body ++ '}' :: rest))
        (false :: false :: (inside ++ true :: marks))

/-- Every character has a mark. -/
theorem Lexed.length_marks {stretch : Stretch} {text : List Char} {marks : List Bool}
    (lexed : Lexed stretch text marks) : marks.length = text.length := by
  induction lexed <;> simp_all

/-! ## Lines and their starts -/

/-- The positions behind the line feeds of a text that starts at a position. -/
def positionsBehindLineFeeds (position : Nat) : List Char → List Nat
  | [] => []
  | c :: rest =>
    if c = '\n' then (position + 1) :: positionsBehindLineFeeds (position + 1) rest
    else positionsBehindLineFeeds (position + 1) rest

/-- The positions at which the lines of a text start. -/
def lineStarts (text : List Char) : List Nat := 0 :: positionsBehindLineFeeds 0 text

theorem length_positionsBehindLineFeeds (position : Nat) (text : List Char) :
    (positionsBehindLineFeeds position text).length = text.count '\n' := by
  induction text generalizing position with
  | nil => rfl
  | cons c rest ih =>
    rw [positionsBehindLineFeeds]
    split
    · rename_i lineFeed
      rw [List.length_cons, ih, lineFeed, List.count_cons_self]
    · rename_i inLine
      rw [ih, List.count_cons_of_ne inLine]

theorem positionsBehindLineFeeds_append (position : Nat) {line : List Char} (inLine : '\n' ∉ line)
    (rest : List Char) :
    positionsBehindLineFeeds position (line ++ rest) =
      positionsBehindLineFeeds (position + line.length) rest := by
  induction line generalizing position with
  | nil => rfl
  | cons c line ih =>
    rw [List.mem_cons, not_or] at inLine
    rw [List.cons_append, positionsBehindLineFeeds, if_neg (Ne.symm inLine.1), ih _ inLine.2,
      List.length_cons, Nat.add_assoc, Nat.add_comm 1]

/-- The marks behind the line feeds of a text. -/
def lineMarks : List Char → List Bool → List Bool
  | c :: text, mark :: marks =>
    if c = '\n' then mark :: lineMarks text marks else lineMarks text marks
  | _, _ => []

theorem lineMarks_append {text text' : List Char} {marks marks' : List Bool}
    (same : marks.length = text.length) :
    lineMarks (text ++ text') (marks ++ marks') =
      lineMarks text marks ++ lineMarks text' marks' := by
  induction text generalizing marks with
  | nil => rw [List.length_eq_zero_iff.1 same]; rfl
  | cons c text ih =>
    obtain ⟨mark, marks, rfl⟩ := List.exists_cons_of_length_eq_add_one same
    rw [List.cons_append, List.cons_append, lineMarks, lineMarks, ih (Nat.succ.inj same)]
    split <;> rfl

theorem lineMarks_of_not_mem {text : List Char} (inLine : '\n' ∉ text) (marks : List Bool) :
    lineMarks text marks = [] := by
  induction text generalizing marks with
  | nil => rfl
  | cons c text ih =>
    rw [List.mem_cons, not_or] at inLine
    cases marks with
    | nil => rfl
    | cons mark marks => rw [lineMarks, if_neg (Ne.symm inLine.1), ih inLine.2]

/-- The marks behind the line feeds are those at the starts of the lines. -/
theorem lineMarks_eq_map {text : List Char} {marks : List Bool}
    (same : marks.length = text.length) (before : List Bool) (position : Nat)
    (start : before.length = position + 1) :
    lineMarks text marks =
      (positionsBehindLineFeeds position text).map fun p => (before ++ marks).getD p false := by
  induction text generalizing marks before position with
  | nil => rw [List.length_eq_zero_iff.1 same]; rfl
  | cons c text ih =>
    obtain ⟨mark, marks, rfl⟩ := List.exists_cons_of_length_eq_add_one same
    have behind := ih (Nat.succ.inj same) (before ++ [mark]) (position + 1) (by simp [start])
    rw [List.append_assoc, List.singleton_append] at behind
    rw [lineMarks, positionsBehindLineFeeds, behind]
    split
    · have self : (before ++ mark :: marks).getD (position + 1) false = mark := by
        simp [List.getD, ← start]
      rw [List.map_cons, self]
    · rfl

/-- A line of a text stands where it starts. -/
theorem getElem?_lineStarts {text line : List Char} {k : Nat}
    (found : (Text.lines text)[k]? = some line) (before : List Char) :
    ∃ p, (before.length :: positionsBehindLineFeeds before.length text)[k]? = some p ∧
      line <+: (before ++ text).drop p := by
  induction k generalizing text before with
  | zero =>
    refine ⟨before.length, rfl, ?_⟩
    rw [List.drop_left]
    -- a last line without a line feed, or a line with one and the text behind it
    rcases exists_line text with inLine | ⟨first, rest, rfl, inLine⟩
    · by_cases empty : text = []
      · subst empty
        cases found
      · rw [lines_of_line inLine empty] at found
        obtain rfl : text = line := Option.some.inj found
        exact List.prefix_rfl
    · rw [lines_append_lineFeed inLine] at found
      obtain rfl : Text.closedLine first.reverse = line := Option.some.inj found
      refine List.IsPrefix.trans ?_ (List.prefix_append first _)
      rcases closedLine_eq first with eq | ⟨eq, -⟩
      · exact ⟨_, eq.symm⟩
      · exact ⟨[], (List.append_nil _).trans eq.symm⟩
  | succ k ih =>
    rcases exists_line text with inLine | ⟨first, rest, rfl, inLine⟩
    · by_cases empty : text = []
      · subst empty
        cases found
      · rw [lines_of_line inLine empty] at found
        cases found
    · rw [lines_append_lineFeed inLine] at found
      obtain ⟨p, start, stands⟩ := ih found (before ++ first ++ ['\n'])
      refine ⟨p, ?_, by simpa using stands⟩
      rw [positionsBehindLineFeeds_append _ inLine, positionsBehindLineFeeds, if_pos rfl]
      simpa [Nat.add_assoc] using start

/-! ## Following the grammar -/

attribute [local simp] lineStartsFrom lineMarks

/-- Whether code ends where this text is left. -/
def EndsCode (outermost : Bool) (rest : List Char) : Prop :=
  if outermost then rest = [] else rest.head? = some '}'

theorem EndsCode.head?_ne {outermost : Bool} {rest : List Char} (ended : EndsCode outermost rest)
    {mark : Char} (other : mark ≠ '}') : rest.head? ≠ some mark := by
  cases outermost with
  | false =>
    rw [show rest.head? = some '}' from ended]
    exact fun same => other (Option.some.inj same).symm
  | true =>
    obtain rfl : rest = [] := ended
    exact nofun

theorem endsCode_brace (rest : List Char) : EndsCode false ('}' :: rest) := rfl

/-- What the scanner does on the text of a stretch: it gives the marks behind the line feeds, and is
then at the end of the stretch. -/
def Leads : Stretch → List Char → List Bool → Prop
  | .code outermost, text, marks => ∀ braces outer rest,
    EndsCode outermost rest →
      lineStartsFrom .nested (.code braces :: outer) (text ++ rest) =
        lineMarks text marks ++ lineStartsFrom .nested (.code braces :: outer) rest
  | .quoted quote, text, marks => ∀ nesting rest, quote = '"' ∨ quote = '\'' →
      lineStartsFrom (.quoted quote) nesting (text ++ quote :: rest) =
        lineMarks text marks ++ lineStartsFrom .nested nesting rest
  | .comment, text, marks => ∀ star nesting rest, (star = true → text.head? ≠ some '/') →
      lineStartsFrom (.comment star) nesting (text ++ '*' :: '/' :: rest) =
        lineMarks text marks ++ lineStartsFrom .nested nesting rest
  | .template, text, marks => ∀ outer rest, rest.head? = some '`' →
      lineStartsFrom .nested (.template :: outer) (text ++ rest) =
        lineMarks text marks ++ lineStartsFrom .nested (.template :: outer) rest

/-- A character of a template literal that neither ends it, nor starts an escape, nor opens a
substitution. -/
theorem lineStartsFrom_templateChar (outer : List Nesting) {c : Char} (rest : List Char)
    (isPlain : c ∉ ['`', '\\']) (opens_none : c = '$' → rest.head? ≠ some '{') :
    lineStartsFrom .nested (.template :: outer) (c :: rest) =
      flagBehind c ++ lineStartsFrom .nested (.template :: outer) rest := by
  simp only [List.mem_cons, List.not_mem_nil, or_false, not_or] at isPlain
  by_cases lineFeed : c = '\n'
  · subst lineFeed
    rfl
  · have plain : ¬(c = '$' ∧ rest.head? = some '{') := fun both => opens_none both.1 both.2
    simp [flagBehind, lineFeed, isPlain, plain]

namespace Leads

variable {outermost : Bool} {c quote : Char} {body rest : List Char} {inside marks : List Bool}

theorem plain (isPlain : c ∉ ['"', '\'', '`', '{', '}', '/'])
    (behind : Leads (.code outermost) rest marks) :
    Leads (.code outermost) (c :: rest) (false :: marks) := by
  intro braces outer tail ended
  by_cases lineFeed : c = '\n'
  · subst lineFeed
    simp [inTemplateText, behind braces outer tail ended]
  · have unmarked : c ∉ Emission.marks := by
      simp only [Emission.marks, List.mem_cons, List.not_mem_nil, or_false, not_or] at isPlain ⊢
      tauto
    rw [List.cons_append, lineStartsFrom_plain _ _ _ unmarked, behind braces outer tail ended]
    simp [lineFeed]

theorem slash (alone : rest.head? ≠ some '/' ∧ rest.head? ≠ some '*')
    (behind : Leads (.code outermost) rest marks) :
    Leads (.code outermost) ('/' :: rest) (false :: marks) := by
  intro braces outer tail ended
  have next : ∀ mark, mark ≠ '}' → rest.head? ≠ some mark → (rest ++ tail).head? ≠ some mark := by
    intro mark other ne
    cases rest with
    | cons d rest => exact ne
    | nil => exact ended.head?_ne other
  rw [List.cons_append, lineStartsFrom_slash _ _ _ (next '/' (by decide) alone.1)
    (next '*' (by decide) alone.2), behind braces outer tail ended]
  simp

theorem string (isQuote : quote = '"' ∨ quote = '\'') (same : inside.length = body.length)
    (inner : Leads (.quoted quote) body inside) (behind : Leads (.code outermost) rest marks) :
    Leads (.code outermost) (quote :: (body ++ quote :: rest))
      (false :: (inside ++ false :: marks)) := by
  intro braces outer tail ended
  have inLine : quote ≠ '\n' := by rcases isQuote with rfl | rfl <;> decide
  rw [List.cons_append, lineStartsFrom_quote _ _ _ isQuote, List.append_assoc, List.cons_append,
    inner _ _ isQuote, behind braces outer tail ended]
  simp [lineMarks_append same, inLine]

/-- A comment up to the end of the line leaves the scanner where it was. -/
theorem lineStartsFrom_lineComment (nesting : List Nesting) (inLine : '\n' ∉ body)
    (text : List Char) :
    lineStartsFrom .lineComment nesting (body ++ text) =
      lineStartsFrom .lineComment nesting text := by
  induction body with
  | nil => rfl
  | cons c body ih =>
    rw [List.mem_cons, not_or] at inLine
    simp [Ne.symm inLine.1, ih inLine.2]

theorem lineComment (inLine : '\n' ∉ body)
    (closed : rest.head? = some '\n' ∨ outermost = true ∧ rest = [])
    (behind : Leads (.code outermost) rest marks) :
    Leads (.code outermost) ('/' :: '/' :: (body ++ rest))
      (false :: false :: (body.map (fun _ => false) ++ marks)) := by
  intro braces outer tail ended
  -- a comment that goes on to the end of the code has no line feed behind it
  have resumed : lineStartsFrom .lineComment (.code braces :: outer) (rest ++ tail) =
      lineStartsFrom .nested (.code braces :: outer) (rest ++ tail) := by
    rcases closed with lineFeed | ⟨rfl, rfl⟩
    · obtain ⟨rest, rfl⟩ := List.head?_eq_some_iff.1 lineFeed
      simp
    · obtain rfl : tail = [] := ended
      simp
  have opened (text : List Char) :
      lineStartsFrom .nested (.code braces :: outer) ('/' :: '/' :: text) =
        lineStartsFrom .lineComment (.code braces :: outer) text := by
    simp
  rw [List.cons_append, List.cons_append, List.append_assoc, opened,
    lineStartsFrom_lineComment _ inLine, resumed, behind braces outer tail ended]
  simp [lineMarks_append, lineMarks_of_not_mem inLine]

theorem blockComment (same : inside.length = body.length) (inner : Leads .comment body inside)
    (behind : Leads (.code outermost) rest marks) :
    Leads (.code outermost) ('/' :: '*' :: (body ++ '*' :: '/' :: rest))
      (false :: false :: (inside ++ false :: false :: marks)) := by
  intro braces outer tail ended
  have opened (text : List Char) :
      lineStartsFrom .nested (.code braces :: outer) ('/' :: '*' :: text) =
        lineStartsFrom (.comment false) (.code braces :: outer) text := by
    simp
  rw [List.cons_append, List.cons_append, List.append_assoc, opened, List.cons_append,
    List.cons_append, inner _ _ _ (by simp), behind braces outer tail ended]
  simp [lineMarks_append same]

theorem braces (same : inside.length = body.length) (inner : Leads (.code false) body inside)
    (behind : Leads (.code outermost) rest marks) :
    Leads (.code outermost) ('{' :: (body ++ '}' :: rest))
      (false :: (inside ++ false :: marks)) := by
  intro braces outer tail ended
  rw [List.cons_append, lineStartsFrom_open, List.append_assoc, List.cons_append,
    inner _ _ _ (endsCode_brace _), lineStartsFrom_close, behind braces outer tail ended]
  simp [lineMarks_append same]

theorem literal (same : inside.length = body.length) (inner : Leads .template body inside)
    (behind : Leads (.code outermost) rest marks) :
    Leads (.code outermost) ('`' :: (body ++ '`' :: rest))
      (true :: (inside ++ false :: marks)) := by
  intro braces outer tail ended
  have closed (text : List Char) :
      lineStartsFrom .nested (.template :: .code braces :: outer) ('`' :: text) =
        lineStartsFrom .nested (.code braces :: outer) text := by
    simp
  rw [List.cons_append, lineStartsFrom_backtick, List.append_assoc, List.cons_append, inner _ _ rfl,
    closed, behind braces outer tail ended]
  simp [lineMarks_append same]

theorem quotedChar (isPlain : c ∉ [quote, '\\', '\n'])
    (behind : Leads (.quoted quote) rest marks) :
    Leads (.quoted quote) (c :: rest) (false :: marks) := by
  intro nesting tail isQuote
  simp only [List.mem_cons, List.not_mem_nil, or_false, not_or] at isPlain
  simp [isPlain, behind nesting tail isQuote]

theorem quotedEscape (behind : Leads (.quoted quote) rest marks) :
    Leads (.quoted quote) ('\\' :: c :: rest) (false :: false :: marks) := by
  intro nesting tail isQuote
  by_cases lineFeed : c = '\n' <;> simp [lineFeed, behind nesting tail isQuote]

theorem quotedEnd : Leads (.quoted quote) [] [] := by
  intro nesting tail isQuote
  rcases isQuote with rfl | rfl <;> simp

theorem commentChar (goes_on : c = '*' → rest.head? ≠ some '/')
    (behind : Leads .comment rest marks) : Leads .comment (c :: rest) (false :: marks) := by
  intro star nesting tail fresh
  by_cases lineFeed : c = '\n'
  · subst lineFeed
    simp [behind false nesting tail (by simp)]
  · have inside : ¬(star = true ∧ c = '/') := fun both => fresh both.1 (by rw [both.2]; rfl)
    simp [lineFeed, inside, behind (decide (c = '*')) nesting tail (by simpa using goes_on)]

theorem templateChar (isPlain : c ∉ ['`', '\\']) (opens_none : c = '$' → rest.head? ≠ some '{')
    (behind : Leads .template rest marks) : Leads .template (c :: rest) (true :: marks) := by
  intro outer tail ended
  have plain : c = '$' → (rest ++ tail).head? ≠ some '{' := by
    intro dollar
    cases rest with
    | cons d rest => exact opens_none dollar
    | nil => simp [ended]
  rw [List.cons_append, lineStartsFrom_templateChar outer _ isPlain plain, behind outer tail ended]
  by_cases lineFeed : c = '\n' <;> simp [flagBehind, lineFeed]

theorem templateEscape (behind : Leads .template rest marks) :
    Leads .template ('\\' :: c :: rest) (true :: true :: marks) := by
  intro outer tail ended
  by_cases lineFeed : c = '\n' <;> simp [lineFeed, behind outer tail ended]

theorem substitution (same : inside.length = body.length) (inner : Leads (.code false) body inside)
    (behind : Leads .template rest marks) :
    Leads .template ('$' :: '{' :: (body ++ '}' :: rest))
      (false :: false :: (inside ++ true :: marks)) := by
  intro outer tail ended
  have opened (text : List Char) :
      lineStartsFrom .nested (.template :: outer) ('$' :: '{' :: text) =
        lineStartsFrom .nested (.code 0 :: .template :: outer) text := by
    simp
  rw [List.cons_append, List.cons_append, opened, List.append_assoc, List.cons_append,
    inner _ _ _ (endsCode_brace _), lineStartsFrom_leave _ _ (by simp), behind outer tail ended]
  simp [lineMarks_append same]

end Leads

/-- The scanner follows the grammar. -/
theorem Lexed.leads {stretch : Stretch} {text : List Char} {marks : List Bool}
    (lexed : Lexed stretch text marks) : Leads stretch text marks := by
  induction lexed with
  | @nil stretch =>
    cases stretch with
    | code => exact fun _ _ _ _ => rfl
    | quoted => exact .quotedEnd
    | comment => exact fun star nesting rest _ => by cases star <;> simp
    | template => exact fun _ _ _ => rfl
  | plain isPlain _ behind => exact .plain isPlain behind
  | slash alone _ behind => exact .slash alone behind
  | string isQuote lexed _ inner behind => exact .string isQuote lexed.length_marks inner behind
  | lineComment inLine ended _ behind => exact .lineComment inLine ended behind
  | blockComment lexed _ inner behind => exact .blockComment lexed.length_marks inner behind
  | braces lexed _ inner behind => exact .braces lexed.length_marks inner behind
  | literal lexed _ inner behind => exact .literal lexed.length_marks inner behind
  | quotedChar isPlain _ behind => exact .quotedChar isPlain behind
  | quotedEscape _ behind => exact .quotedEscape behind
  | commentChar goes_on _ behind => exact .commentChar goes_on behind
  | templateChar isPlain opens_none _ behind => exact .templateChar isPlain opens_none behind
  | templateEscape _ behind => exact .templateEscape behind
  | substitution lexed _ inner behind => exact .substitution lexed.length_marks inner behind

/-! ## The lines of code -/

/-- Whether a position of a text with these marks lies in the text of a template literal. The
outermost code does not start in one. -/
def InTemplateText (marks : List Bool) (p : Nat) : Prop := (false :: marks)[p]? = some true

theorem length_templateLineStarts (code : List Char) :
    (templateLineStarts code).length = code.count '\n' + 1 := by
  rw [templateLineStarts, List.length_cons, length_lineStartsFrom (by simp [Mode.expected?])]

theorem length_lines_le (text : List Char) : (Text.lines text).length ≤ text.count '\n' + 1 := by
  by_contra more
  rw [Nat.not_le] at more
  obtain ⟨p, start, -⟩ := getElem?_lineStarts (List.getElem?_eq_getElem more) []
  have bound := (List.getElem?_eq_some_iff.1 start).1
  rw [List.length_cons, length_positionsBehindLineFeeds] at bound
  exact Nat.lt_irrefl _ bound

theorem templateLineStarts_eq_map {code : List Char} {marks : List Bool}
    (lexed : Lexed (.code true) code marks) :
    templateLineStarts code = (lineStarts code).map fun p => (false :: marks).getD p false := by
  have flags := lexed.leads 0 [] [] rfl
  rw [List.append_nil, lineMarks_eq_map lexed.length_marks [false] 0 rfl] at flags
  rw [templateLineStarts, flags, lineStarts, List.map_cons]
  simp

/-- **Template line starts are exact.** For every text there is one flag for each line feed and one
more, so no line is lost when lines and flags are put side by side, and each line stands at the
position where it starts. If the text is well-formed code, the flag of a line is set if and only if
that position lies in the text of a template literal. -/
theorem templateLineStarts_exact (code : List Char) :
    (templateLineStarts code).length = code.count '\n' + 1 ∧
      ((Text.lines code).zip (templateLineStarts code)).map Prod.fst = Text.lines code ∧
      (∀ (k : Nat) (line : List Char), (Text.lines code)[k]? = some line →
        ∃ p, (lineStarts code)[k]? = some p ∧ line <+: code.drop p) ∧
      ∀ marks, Lexed (.code true) code marks → ∀ k : Nat,
        (templateLineStarts code)[k]? = some true ↔
          ∃ p, (lineStarts code)[k]? = some p ∧ InTemplateText marks p := by
  refine ⟨length_templateLineStarts code, ?_, ?_, ?_⟩
  · refine List.map_fst_zip ?_
    rw [length_templateLineStarts]
    exact length_lines_le code
  · intro k line found
    exact getElem?_lineStarts found []
  · intro marks lexed k
    rw [templateLineStarts_eq_map lexed, List.getElem?_map, Option.map_eq_some_iff]
    refine exists_congr fun p => and_congr_right fun _ => ?_
    unfold InTemplateText
    rw [List.getD]
    cases (false :: marks)[p]? <;> simp

/-- A template literal with a backtick between quotes in a substitution, and a comment with a
backtick behind it. -/
def quotedBacktick : List Char :=
  ['`', '\n', '$', '{', '\'', '`', '\'', '}', '\n', '`', '/', '/', '`', '\n', 'b']

theorem templateLineStarts_exact_quotedBacktick :
    ∃ marks, Lexed (.code true) quotedBacktick marks ∧
      templateLineStarts quotedBacktick = [false, true, true, false] ∧
      ∀ k : Nat, (templateLineStarts quotedBacktick)[k]? = some true ↔
        ∃ p, (lineStarts quotedBacktick)[k]? = some p ∧ InTemplateText marks p := by
  have comment : Lexed (.code true) ('/' :: '/' :: (['`'] ++ ['\n', 'b'])) _ :=
    .lineComment (by decide) (.inl rfl)
      (.plain (by decide) (.plain (by decide) .nil))
  have backtick : Lexed (.code false) ('\'' :: (['`'] ++ ['\''])) _ :=
    .string (.inr rfl) (.quotedChar (by decide) .nil) .nil
  have literal : Lexed .template ['\n', '$', '{', '\'', '`', '\'', '}', '\n'] _ :=
    .templateChar (by decide) (by decide)
      (.substitution backtick (.templateChar (by decide) (by decide) .nil))
  have lexed : Lexed (.code true) quotedBacktick _ := .literal literal comment
  exact ⟨_, lexed, by decide, (templateLineStarts_exact quotedBacktick).2.2.2 _ lexed⟩

end ReactiveMarkup.Emission
