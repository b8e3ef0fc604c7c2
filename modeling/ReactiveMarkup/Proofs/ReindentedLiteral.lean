import Mathlib.Data.List.Infix
import ReactiveMarkup.Proofs.ReindentedGap

/-!
# Literals of reindented code

The lines of a template literal are not indented, so its text stays as it is, except that a carriage
return before a line feed is left out (`reindent_template`); a template literal takes both for one
line feed anyway. A string literal on one line stays as it is. One that is continued over lines
does not: the scanner sees that the next line starts in no template literal, and the spaces in
front of the line become part of the value (`spaces_of_continued`).
-/

namespace ReactiveMarkup.Emission

open Script

/-! ## Carriage returns -/

/-- A text without the carriage returns that stand before line feeds. -/
def joinReturns : List Char → List Char
  | [] => []
  | c :: rest =>
    if c = '\r' && rest.head? = some '\n' then joinReturns rest else c :: joinReturns rest

theorem joinReturns_cons {c : Char} {rest : List Char}
    (kept : ¬(c = '\r' ∧ rest.head? = some '\n')) :
    joinReturns (c :: rest) = c :: joinReturns rest := by
  rw [joinReturns, if_neg (by simpa using kept)]

theorem joinReturns_return (rest : List Char) :
    joinReturns ('\r' :: '\n' :: rest) = '\n' :: joinReturns rest := by
  rw [joinReturns, if_pos (by simp), joinReturns_cons (by simp)]

/-- With unified line ends it makes no difference, unless another carriage return comes before. -/
theorem unifyLines_joinReturns {text : List Char} (single : ¬['\r', '\r', '\n'] <:+: text) :
    unifyLines (joinReturns text) = unifyLines text := by
  induction text with
  | nil => rfl
  | cons c rest ih =>
    have ih := ih fun inside => single (inside.trans (List.suffix_cons _ _).isInfix)
    by_cases isReturn : c = '\r'
    · subst isReturn
      match rest with
      | [] => rfl
      | d :: rest =>
        by_cases lineFeed : d = '\n'
        · subst lineFeed
          rw [joinReturns_cons (by simp)] at ih
          rw [joinReturns_return]
          simpa [unifyLines] using ih
        · -- a line feed does not come first later either
          have behind : (joinReturns (d :: rest)).head? ≠ some '\n' := by
            rw [joinReturns]
            split
            · rename_i dropped
              simp only [Bool.and_eq_true, decide_eq_true_eq] at dropped
              obtain ⟨rfl, next⟩ := dropped
              obtain ⟨rest, rfl⟩ := List.head?_eq_some_iff.1 next
              exact absurd ⟨[], rest, rfl⟩ single
            · simpa using lineFeed
          rw [joinReturns_cons (by simp [lineFeed])]
          simp only [unifyLines, if_true, behind, if_false, List.head?_cons, Option.some.injEq,
            lineFeed] at ih ⊢
          rw [ih]
    · rw [joinReturns_cons fun dropped => isReturn dropped.1]
      simp [unifyLines, isReturn, ih]

/-! ## Template literals -/

/-- A carriage return in a template literal is read as a line feed is. -/
theorem templateMove_return {mode : TemplateMode} (goes_on : mode ≠ .closed)
    (inText : mode ≠ .substitution) :
    ∃ fine, templateMove mode '\r' = (.text, fine) ∧ templateMove mode '\n' = (.text, fine) := by
  cases mode with
  | closed => exact absurd rfl goes_on
  | substitution => exact absurd rfl inText
  | text | dollar => exact ⟨true, rfl, rfl⟩
  | escape mode => cases mode <;> exact ⟨_, rfl, rfl⟩

theorem delimiter_of_templateTextMove (afterDollar : Bool) (c : Char) :
    (templateTextMove afterDollar c = .closed → c = '`') ∧
      (templateTextMove afterDollar c = .substitution → c = '{') := by
  unfold templateTextMove
  grind

/-- A template literal ends with a backtick, and its text before a substitution with a brace. -/
theorem delimiter_of_templateMove {mode : TemplateMode} (goes_on : mode ≠ .closed)
    (inText : mode ≠ .substitution) (c : Char) :
    ((templateMove mode c).1 = .closed → c = '`') ∧
      ((templateMove mode c).1 = .substitution → c = '{') := by
  cases mode with
  | closed => exact absurd rfl goes_on
  | substitution => exact absurd rfl inText
  | text | dollar => exact delimiter_of_templateTextMove _ c
  | escape mode =>
    unfold templateMove
    dsimp only
    split
    · simp
    · simp
    · exact delimiter_of_templateTextMove false c
    · split
      · simp
      · exact delimiter_of_templateTextMove false c

theorem ne_nil_of_scanTemplate {mode : TemplateMode} {wellFormed : Bool} {index : Nat}
    {text : List Char} {scan : TemplateScan}
    (scanned : scanTemplate mode wellFormed index text = some scan) : text ≠ [] := by
  rintro rfl
  cases scanned

/-- The text of a template literal keeps its lines when those of the code are indented anew. -/
theorem reindent_template {mode : TemplateMode} {wellFormed : Bool} {index : Nat}
    {piece : List Char} {scan : TemplateScan} (goes_on : mode ≠ .closed)
    (inText : mode ≠ .substitution)
    (scanned : scanTemplate mode wellFormed index piece = some scan) (whole : scan.stop.rest = [])
    (width : Nat) (outer : List Nesting) (rest : List Char) :
    reindent width false (templateFlags outer mode (piece ++ rest)) (piece ++ rest) =
      joinReturns piece ++
        reindent width false
          (templateFlags outer (if scan.closed then .closed else .substitution) rest) rest := by
  -- the delimiter that ends the text is on the line of what comes before it
  have last : ∀ {mode' mode : TemplateMode} {c : Char}, mode ≠ .closed → mode ≠ .substitution →
      (templateMove mode c).1 = mode' → (c = '`' ∨ c = '{') →
      reindent width false (templateFlags outer mode (c :: rest)) (c :: rest) =
        joinReturns [c] ++ reindent width false (templateFlags outer mode' rest) rest := by
    intro mode' mode c goes_on inText move delimiter
    have plain : c ≠ '\n' ∧ c ≠ '\r' := by rcases delimiter with rfl | rfl <;> decide
    rw [templateFlags_cons outer rest goes_on inText, move, flagBehind, if_neg plain.1,
      List.nil_append, reindent_cons _ _ _ plain.1 fun dropped => plain.2 dropped.1,
      joinReturns_cons fun dropped => plain.2 dropped.1]
    rfl
  fun_induction scanTemplate mode wellFormed index piece with
  | case1 => cases scanned
  | case2 mode wellFormed index c piece fine move =>
    cases scanned
    obtain rfl : piece = [] := whole
    have move : (templateMove mode c).1 = .closed := by rw [move]
    exact last goes_on inText move (.inl ((delimiter_of_templateMove goes_on inText c).1 move))
  | case3 mode wellFormed index c piece fine move =>
    cases scanned
    obtain rfl : piece = [] := whole
    have move : (templateMove mode c).1 = .substitution := by rw [move]
    exact last goes_on inText move (.inr ((delimiter_of_templateMove goes_on inText c).2 move))
  | case4 mode wellFormed index c piece mode' fine goes_on' inText' move ih =>
    have ih := ih goes_on' inText' scanned
    have nonempty := ne_nil_of_scanTemplate scanned
    have head : (piece ++ rest).head? = piece.head? := by
      cases piece with
      | nil => exact absurd rfl nonempty
      | cons d piece => rfl
    have move : (templateMove mode c).1 = mode' := by rw [move]
    rw [List.cons_append, templateFlags_cons outer (piece ++ rest) goes_on inText, move, flagBehind]
    by_cases lineFeed : c = '\n'
    · subst lineFeed
      rw [if_pos rfl, List.singleton_append, reindent_lineFeed, joinReturns_cons (by simp),
        List.cons_append, ← ih]
      simp [reindentLine, nonempty]
    · rw [if_neg lineFeed, List.nil_append]
      by_cases dropped : c = '\r' ∧ piece.head? = some '\n'
      · obtain ⟨rfl, next⟩ := dropped
        obtain ⟨piece, rfl⟩ := List.head?_eq_some_iff.1 next
        rw [joinReturns_return, ← joinReturns_cons (by simp)]
        exact ih
      · rw [reindent_cons _ _ _ lineFeed (by rwa [head]), joinReturns_cons dropped, ih]
        rfl

/-- A template literal is read as before without the carriage returns before its line feeds. -/
theorem scanTemplate_joinReturns {mode : TemplateMode} {wellFormed : Bool} {index : Nat}
    {piece : List Char} {scan : TemplateScan} (goes_on : mode ≠ .closed)
    (inText : mode ≠ .substitution)
    (scanned : scanTemplate mode wellFormed index piece = some scan) (whole : scan.stop.rest = [])
    (rest : List Char) (index' : Nat) :
    ∃ stop, scanTemplate mode wellFormed index' (joinReturns piece ++ rest) =
      some ⟨scan.closed, scan.wellFormed, ⟨rest, stop⟩⟩ := by
  fun_induction scanTemplate mode wellFormed index piece generalizing index' with
  | case1 => cases scanned
  | case2 mode wellFormed index c piece fine move =>
    cases scanned
    obtain rfl : piece = [] := whole
    exact ⟨index' + 1, by simp [joinReturns, scanTemplate, move]⟩
  | case3 mode wellFormed index c piece fine move =>
    cases scanned
    obtain rfl : piece = [] := whole
    exact ⟨index' + 1, by simp [joinReturns, scanTemplate, move]⟩
  | case4 mode wellFormed index c piece mode' fine goes_on' inText' move ih =>
    by_cases dropped : c = '\r' ∧ piece.head? = some '\n'
    · obtain ⟨rfl, next⟩ := dropped
      obtain ⟨piece, rfl⟩ := List.head?_eq_some_iff.1 next
      -- behind a carriage return the literal is in its text, where it also is behind the line feed
      obtain ⟨fine', isReturn, lineFeed⟩ := templateMove_return goes_on inText
      obtain ⟨rfl, rfl⟩ : .text = mode' ∧ fine' = fine := Prod.mk.inj (isReturn.symm.trans move)
      obtain ⟨stop, read⟩ := ih goes_on' inText' scanned index'
      have inTextLine : templateMove .text '\n' = (.text, true) := rfl
      rw [joinReturns_cons (by simp), List.cons_append,
        scanTemplate_next inTextLine goes_on' inText'] at read
      rw [joinReturns_return, List.cons_append, scanTemplate_next lineFeed goes_on' inText']
      exact ⟨stop, by simpa using read⟩
    · obtain ⟨stop, read⟩ := ih goes_on' inText' scanned (index' + 1)
      rw [joinReturns_cons dropped, List.cons_append, scanTemplate_next move goes_on' inText']
      exact ⟨stop, read⟩

/-! ## String literals -/

theorem quotedTextMove_next {quote c : Char} {before points : List Nat} {mode : Option EscapeMode}
    (move : quotedTextMove quote before c = .next mode points) : c ≠ '\n' ∧ c ≠ '\r' := by
  constructor <;> rintro rfl <;> grind [quotedTextMove]

/-- In a string literal a line feed stands behind a backslash only, with a carriage return between
them or without. -/
theorem quotedMove_lineFeed {quote : Char} {mode mode' : Option EscapeMode} {points : List Nat}
    (move : quotedMove quote mode '\n' = .next mode' points) :
    (mode = some .backslash ∨ mode = some .carriageReturn) ∧ mode' = none ∧ points = [] := by
  have text : ∀ before, quotedTextMove quote before '\n' ≠ .next mode' points :=
    fun _ eq => (quotedTextMove_next eq).1 rfl
  match mode with
  | none => exact absurd move (text [])
  | some .backslash =>
    cases move
    exact ⟨.inl rfl, rfl, rfl⟩
  | some .carriageReturn =>
    cases move
    exact ⟨.inr rfl, rfl, rfl⟩
  | some (.octal _ value) => exact absurd move (text [value])
  | some (.digits _ _) | some .unicode | some (.braced _ _) | some .zero => cases move

/-- A carriage return stands behind a backslash. -/
theorem quotedMove_return {quote : Char} {mode mode' : Option EscapeMode} {points : List Nat}
    (move : quotedMove quote mode '\r' = .next mode' points) :
    mode = some .backslash ∧ mode' = some .carriageReturn ∧ points = [] := by
  have text : ∀ before, quotedTextMove quote before '\r' ≠ .next mode' points :=
    fun _ eq => (quotedTextMove_next eq).2 rfl
  match mode with
  | none => exact absurd move (text [])
  | some .backslash =>
    cases move
    exact ⟨rfl, rfl, rfl⟩
  | some .carriageReturn => exact absurd move (text [])
  | some (.octal _ value) => exact absurd move (text [value])
  | some (.digits _ _) | some .unicode | some (.braced _ _) | some .zero => cases move

theorem quotedMove_closed {quote c : Char} {mode : Option EscapeMode} {points : List Nat}
    (move : quotedMove quote mode c = .closed points) : c = quote := by
  have text : ∀ before, quotedTextMove quote before c = .closed points → c = quote := by
    intro before
    grind [quotedTextMove]
  cases mode with
  | none => exact text [] move
  | some mode =>
    unfold quotedMove at move
    dsimp only at move
    split at move
    · cases move
    · cases move
    · exact text _ move
    · cases move

/-- A string literal ends with its quote. -/
theorem getLast?_of_scanQuoted {quote : Char} {mode : Option EscapeMode} {taken : List Nat}
    {index : Nat} {piece : List Char} {scan : QuotedScan}
    (scanned : scanQuoted quote mode taken index piece = some scan)
    (whole : scan.stop.rest = []) : piece.getLast? = some quote := by
  fun_induction scanQuoted quote mode taken index piece with
  | case1 => cases scanned
  | case2 mode taken index c piece mode' points move ih =>
    rw [List.getLast?_cons, ih scanned]
    rfl
  | case3 mode taken index c piece points move =>
    cases scanned
    obtain rfl : piece = [] := whole
    rw [quotedMove_closed move]
    rfl
  | case4 => cases scanned

theorem scanQuoted_next {quote c : Char} {mode mode' : Option EscapeMode} {points : List Nat}
    (move : quotedMove quote mode c = .next mode' points) (taken : List Nat) (index : Nat)
    (rest : List Char) :
    scanQuoted quote mode taken index (c :: rest) =
      scanQuoted quote mode' (points.reverse ++ taken) (index + 1) rest := by
  rw [scanQuoted, move]

theorem scanQuoted_closed {quote c : Char} {mode : Option EscapeMode} {points : List Nat}
    (move : quotedMove quote mode c = .closed points) (taken : List Nat) (index : Nat)
    (rest : List Char) :
    scanQuoted quote mode taken index (c :: rest) =
      some ⟨taken.reverse ++ points, ⟨rest, index + 1⟩⟩ := by
  rw [scanQuoted, move]

section

variable {quote : Char}

/-- Indenting the lines behind it changes nothing about how a character inside a line is read. A
carriage return that is left out stands in a continuation, which the line feed ends as well. -/
theorem scanQuoted_reindent_cons {mode mode' : Option EscapeMode} {c : Char} {points : List Nat}
    (move : quotedMove quote mode c = .next mode' points) (inLine : c ≠ '\n') (width : Nat)
    (flags : List Bool) (taken : List Nat) (index : Nat) (text : List Char) :
    ∃ index', scanQuoted quote mode taken index (reindent width false flags (c :: text)) =
      scanQuoted quote mode' (points.reverse ++ taken) index'
        (reindent width false flags text) := by
  by_cases dropped : c = '\r' ∧ text.head? = some '\n'
  · obtain ⟨rfl, next⟩ := dropped
    obtain ⟨text, rfl⟩ := List.head?_eq_some_iff.1 next
    obtain ⟨rfl, rfl, rfl⟩ := quotedMove_return move
    exact ⟨index, rfl⟩
  · exact ⟨index + 1, by rw [reindent_cons _ _ _ inLine dropped, scanQuoted_next move]⟩

/-- The scanner takes the line on which a string literal goes on for a line of code. -/
theorem lineStartsFrom_continued {mode mode' : Option EscapeMode} {points : List Nat}
    (move : quotedMove quote mode '\n' = .next mode' points) (nesting : List Nesting)
    (rest : List Char) :
    (lineStartsFrom (quotedMode quote mode) nesting ('\n' :: rest)).headD false = false := by
  rcases (quotedMove_lineFeed move).1 with rfl | rfl <;> rfl

variable (isQuote : quote = '"' ∨ quote = '\'')
include isQuote

/-- The spaces in front of a line are part of a string literal that goes on there. -/
theorem scanQuoted_pad (width : Nat) (taken : List Nat) (index : Nat) (rest : List Char) :
    scanQuoted quote none taken index (List.replicate width ' ' ++ rest) =
      scanQuoted quote none (List.replicate width 32 ++ taken) (index + width) rest := by
  have move : quotedMove quote none ' ' = .next none [32] := by
    rcases isQuote with rfl | rfl <;> rfl
  induction width generalizing taken index with
  | zero => rfl
  | succ width ih =>
    rw [List.replicate_succ, List.cons_append, scanQuoted_next move, ih]
    congr 1
    · rw [List.replicate_succ', List.append_assoc]
      rfl
    · omega

/-- A line on which a string literal goes on is not blank. -/
theorem allBlank_of_scanQuoted {taken : List Nat} {index : Nat} {text : List Char}
    {scan : QuotedScan} (scanned : scanQuoted quote none taken index text = some scan) :
    Text.allBlank (lineOf text) = false := by
  induction text generalizing taken index with
  | nil => cases scanned
  | cons c text ih =>
    cases move : quotedMove quote none c with
    | wrong =>
      rw [scanQuoted, move] at scanned
      cases scanned
    | closed points =>
      obtain rfl := quotedMove_closed move
      rw [lineOf_cons (by rcases isQuote with rfl | rfl <;> decide)]
      rcases isQuote with rfl | rfl <;> rfl
    | next mode points =>
      have inLine := (quotedTextMove_next move).1
      rw [lineOf_cons inLine]
      by_cases escape : c = '\\'
      · subst escape
        rfl
      · have same : mode = none := by grind [quotedMove, quotedTextMove]
        subst same
        rw [scanQuoted_next move] at scanned
        have later := ih scanned
        rw [Text.allBlank] at later
        rw [Text.allBlank, List.all_cons, later, Bool.and_false]

/-- A line on which a string literal goes on is indented, unless it is taken for the text of a
template literal. -/
theorem reindentLine_of_scanQuoted {taken : List Nat} {index : Nat} {text : List Char}
    {scan : QuotedScan} (scanned : scanQuoted quote none taken index text = some scan)
    (width : Nat) (flags : List Bool) :
    ∃ pad, reindentLine width flags text =
        List.replicate pad ' ' ++ reindent width false flags.tail text ∧
      (flags.headD false = false → pad = width) := by
  have nonempty : text ≠ [] := by
    rintro rfl
    cases scanned
  rw [reindentLine, if_neg nonempty, allBlank_of_scanQuoted isQuote scanned]
  cases flags.headD false with
  | true => exact ⟨0, rfl, by simp⟩
  | false => exact ⟨width, rfl, fun _ => rfl⟩

/-- Behind a line feed, a string literal goes on with the spaces in front of the next line. -/
theorem scanQuoted_reindent_lineFeed {mode mode' : Option EscapeMode} {points taken : List Nat}
    {index : Nat} {text : List Char} {scan : QuotedScan}
    (move : quotedMove quote mode '\n' = .next mode' points)
    (scanned : scanQuoted quote mode' (points.reverse ++ taken) index text = some scan)
    (width : Nat) (flags : List Bool) (taken' : List Nat) (index' : Nat) :
    ∃ pad stop, scanQuoted quote mode taken' index' (reindent width false flags ('\n' :: text)) =
        scanQuoted quote mode' (points.reverse ++ (List.replicate pad 32 ++ taken')) stop
          (reindent width false flags.tail text) ∧
      (flags.headD false = false → pad = width) := by
  obtain ⟨-, rfl, rfl⟩ := quotedMove_lineFeed move
  obtain ⟨pad, line, padded⟩ := reindentLine_of_scanQuoted isQuote scanned width flags
  refine ⟨pad, index' + 1 + pad, ?_, padded⟩
  rw [reindent_lineFeed, scanQuoted_next move, line]
  exact scanQuoted_pad isQuote _ _ _ _

theorem scanQuoted_reindent_closed {mode : Option EscapeMode} {c : Char} {points : List Nat}
    (move : quotedMove quote mode c = .closed points) (width : Nat) (flags : List Bool)
    (taken : List Nat) (index : Nat) (text : List Char) :
    scanQuoted quote mode taken index (reindent width false flags (c :: text)) =
      some ⟨taken.reverse ++ points, ⟨reindent width false flags text, index + 1⟩⟩ := by
  obtain rfl := quotedMove_closed move
  have kept : c ≠ '\n' ∧ c ≠ '\r' := by rcases isQuote with rfl | rfl <;> decide
  rw [reindent_cons _ _ _ kept.1 fun dropped => kept.2 dropped.1, scanQuoted_closed move]

/-- Whatever lines are indented, a string literal is read as one whose value has no fewer
spaces. -/
theorem scanQuoted_reindent {mode : Option EscapeMode} {taken : List Nat} {index : Nat}
    {text : List Char} {scan : QuotedScan}
    (scanned : scanQuoted quote mode taken index text = some scan) (width : Nat)
    (flags : List Bool) (taken' : List Nat) (index' : Nat) :
    ∃ scan', scanQuoted quote mode taken' index' (reindent width false flags text) = some scan' ∧
      scan.points.count 32 + taken'.count 32 ≤ scan'.points.count 32 + taken.count 32 := by
  fun_induction scanQuoted quote mode taken index text generalizing flags taken' index' with
  | case1 => cases scanned
  | case2 mode taken index c text mode' points move ih =>
    by_cases lineFeed : c = '\n'
    · subst lineFeed
      obtain ⟨pad, stop, step, -⟩ :=
        scanQuoted_reindent_lineFeed isQuote move scanned width flags taken' index'
      obtain ⟨scan', read, more⟩ :=
        ih scanned flags.tail (points.reverse ++ (List.replicate pad 32 ++ taken')) stop
      refine ⟨scan', step.trans read, ?_⟩
      simp [List.count_append] at more
      omega
    · obtain ⟨stop, step⟩ :=
        scanQuoted_reindent_cons move lineFeed width flags taken' index' text
      obtain ⟨scan', read, more⟩ := ih scanned flags (points.reverse ++ taken') stop
      refine ⟨scan', step.trans read, ?_⟩
      simp [List.count_append] at more
      omega
  | case3 mode taken index c text points move =>
    cases scanned
    refine ⟨_, scanQuoted_reindent_closed isQuote move _ _ _ _ _, ?_⟩
    simp [List.count_append]
    omega
  | case4 => cases scanned

/-- A string literal that is continued on another line takes up the spaces in front of the line. -/
theorem spaces_of_continued {mode : Option EscapeMode} {taken : List Nat} {index : Nat}
    {text piece : List Char} {scan : QuotedScan}
    (scanned : scanQuoted quote mode taken index text = some scan)
    (split : text = piece ++ scan.stop.rest) (continued : '\n' ∈ piece) (width : Nat)
    (nesting : List Nesting) (taken' : List Nat) (index' : Nat) :
    ∃ scan', scanQuoted quote mode taken' index'
        (reindent width false (lineStartsFrom (quotedMode quote mode) nesting text) text) =
          some scan' ∧
      scan.points.count 32 + taken'.count 32 + width ≤
        scan'.points.count 32 + taken.count 32 := by
  fun_induction scanQuoted quote mode taken index text generalizing piece taken' index' with
  | case1 => cases scanned
  | case2 mode taken index c text mode' points move ih =>
    by_cases lineFeed : c = '\n'
    · subst lineFeed
      have inCode := lineStartsFrom_continued move nesting text
      generalize lineStartsFrom (quotedMode quote mode) nesting ('\n' :: text) = flags at inCode ⊢
      -- the line behind this line feed is indented, and the literal takes all its spaces
      obtain ⟨pad, stop, step, padded⟩ :=
        scanQuoted_reindent_lineFeed isQuote move scanned width flags taken' index'
      obtain rfl := padded inCode
      obtain ⟨scan', read, more⟩ := scanQuoted_reindent isQuote scanned pad flags.tail
        (points.reverse ++ (List.replicate pad 32 ++ taken')) stop
      refine ⟨scan', step.trans read, ?_⟩
      simp [List.count_append] at more
      omega
    · obtain ⟨line, within, -⟩ := exists_piece_of_scanQuoted scanned
      obtain ⟨piece, rfl, split'⟩ := exists_gap_of_cons ⟨line, within.symm⟩ split
      have continued : '\n' ∈ piece := by simpa [Ne.symm lineFeed] using continued
      rw [lineStartsFrom_quotedMove nesting text isQuote move lineFeed]
      obtain ⟨stop, step⟩ := scanQuoted_reindent_cons move lineFeed width
        (lineStartsFrom (quotedMode quote mode') nesting text) taken' index' text
      obtain ⟨scan', read, more⟩ :=
        ih scanned split' continued (points.reverse ++ taken') stop
      refine ⟨scan', step.trans read, ?_⟩
      simp [List.count_append] at more
      omega
  | case3 mode taken index c text points move =>
    cases scanned
    obtain ⟨piece, rfl, split'⟩ := exists_gap_of_cons (List.suffix_refl _) split
    obtain rfl := quotedMove_closed move
    obtain rfl : piece = [] := by simpa using split'
    rcases isQuote with rfl | rfl <;> simp at continued
  | case4 => cases scanned

end

end ReactiveMarkup.Emission
