import ReactiveMarkup.Proofs.ReindentedLiteral

/-!
# Tokens of reindented code

A token keeps its meaning when the lines of code are indented anew, and the scanner stays in step
with the lexer behind it (`keepsToken_of_starts`). The exception is a string literal that is
continued on another line (`changesToken_of_starts`).
-/

namespace ReactiveMarkup.Emission

open Markup (OpenBrace)
open Script

/-! ## Where tokens start -/

/-- The token that starts at a place, and where it ends. -/
def tokenAt (opened : List OpenBrace) (start : Cursor) : TokenKind × Cursor :=
  let scan := scanAt start
  if opened.head? = some .substitution && scan.1 == .punctuator "\x7d" then
    match scanTemplate .text true (start.index + 1) (start.rest.drop 1) with
    | some piece => (.template piece.closed piece.wellFormed, piece.stop)
    | none => (.invalid, scan.2)
  else scan

theorem tokenIn_eq (opened : List OpenBrace) {text : List Char}
    (closed : (skipGap .blank false 0 text).closed = true) :
    (tokenIn opened text).start = (skipGap .blank false 0 text).stop ∧
      (tokenIn opened text).kind = (tokenAt opened (skipGap .blank false 0 text).stop).1 ∧
      (tokenIn opened text).stop = (tokenAt opened (skipGap .blank false 0 text).stop).2 := by
  unfold tokenIn scanToken tokenAt Token.isPunctuator Token.asTemplate
  simp only [closed, if_true]
  generalize skipGap .blank false 0 text = gap
  split
  · cases scanTemplate .text true (gap.stop.index + 1) (gap.stop.rest.drop 1) <;>
    exact ⟨rfl, rfl, rfl⟩
  · exact ⟨rfl, rfl, rfl⟩

/-- The ways in which a token starts, given the open braces. -/
inductive Starts (opened : List OpenBrace) (c : Char) (more : List Char) (index : Nat) :
    TokenKind → Cursor → Prop
  | scanned {kind : TokenKind} {stop : Cursor} (scanned : Scanned c more index kind stop)
      (outside : kind = .punctuator "\x7d" → opened.head? ≠ some .substitution) :
      Starts opened c more index kind stop
  /-- A substitution is closed and the template literal goes on. -/
  | resumed {stop : Cursor} {scan : TemplateScan} (outer : List OpenBrace)
      (closes : Scanned c more index (.punctuator "\x7d") stop)
      (inside : opened = .substitution :: outer)
      (read : scanTemplate .text true (index + 1) more = some scan) :
      Starts opened c more index (.template scan.closed scan.wellFormed) scan.stop

theorem starts_of_tokenAt {opened : List OpenBrace} {c : Char} {more : List Char} {index : Nat}
    {kind : TokenKind} {stop : Cursor} (read : tokenAt opened ⟨c :: more, index⟩ = (kind, stop))
    (valid : kind ≠ .invalid) : Starts opened c more index kind stop := by
  unfold tokenAt at read
  dsimp only at read
  split at read
  · rename_i closing
    simp only [Bool.and_eq_true, decide_eq_true_eq, beq_iff_eq] at closing
    obtain ⟨inside, closes⟩ := closing
    obtain ⟨outer, inside⟩ := List.head?_eq_some_iff.1 inside
    have closes : Scanned c more index (.punctuator "\x7d") (scanAt ⟨c :: more, index⟩).2 :=
      scanned_of_scanAt (Prod.ext closes rfl) (by simp)
    split at read <;> cases read
    · rename_i scan read
      exact .resumed outer closes inside read
    · exact absurd rfl valid
  · rename_i goes_on
    refine .scanned (scanned_of_scanAt read valid) fun closes inside => goes_on ?_
    rw [read, closes]
    simp [inside]

theorem Starts.exists_piece {opened : List OpenBrace} {c : Char} {more : List Char} {index : Nat}
    {kind : TokenKind} {stop : Cursor} (starts : Starts opened c more index kind stop) :
    ∃ piece, more = piece ++ stop.rest := by
  cases starts with
  | scanned scanned => exact scanned.exists_piece
  | resumed _ _ _ read =>
    obtain ⟨piece, split, -⟩ := exists_piece_of_scanTemplate read
    exact ⟨piece, split⟩

theorem tokenAt_of_scanAt {opened : List OpenBrace} {start stop : Cursor} {kind : TokenKind}
    (read : scanAt start = (kind, stop))
    (outside : kind = .punctuator "\x7d" → opened.head? ≠ some .substitution) :
    tokenAt opened start = (kind, stop) := by
  unfold tokenAt
  rw [read]
  dsimp only
  rw [if_neg]
  simpa using fun inside closes => outside closes inside

/-! ## The first item -/

/-- The item that blanks and comments lead to. -/
theorem firstItem_of_leadsTo {opened : List OpenBrace} {text start rest : List Char}
    {kind : TokenKind} (leads : LeadsTo .blank text start)
    (read : ∀ index, ∃ stop, tokenAt opened ⟨start, index⟩ = (kind, ⟨rest, stop⟩)) :
    firstItem opened text = (⟨textBefore start text, kind, textBefore rest start⟩, rest) := by
  obtain ⟨closed, eq⟩ := leads false 0
  obtain ⟨starts, isKind, stops⟩ := tokenIn_eq opened closed
  obtain ⟨stop, read⟩ := read (skipGap .blank false 0 text).stop.index
  have place : (skipGap .blank false 0 text).stop =
      ⟨start, (skipGap .blank false 0 text).stop.index⟩ := by rw [← eq]
  rw [place] at starts isKind stops
  rw [read] at isKind stops
  simp only [firstItem, starts, isKind, stops]

/-! ## Tokens that keep their meaning -/

/-- Code that starts with a token starts with a token of the same kind and meaning when its lines
are indented anew, and behind it the scanner is in step with the lexer. -/
def KeepsToken (width : Nat) (opened : List OpenBrace) (kind : TokenKind) (c : Char)
    (piece rest : List Char) : Prop :=
  let behind := reindented width (nestingOf (openedBehind kind (some c) opened)) rest
  ∃ piece', meaning kind (c :: piece') = meaning kind (c :: piece) ∧
    reindented width (nestingOf opened) (c :: (piece ++ rest)) = c :: (piece' ++ behind) ∧
    ∀ index, ∃ stop, tokenAt opened ⟨c :: (piece' ++ behind), index⟩ = (kind, ⟨behind, stop⟩)

section

variable {c : Char} {more : List Char} {index : Nat} {kind : TokenKind} {stop : Cursor}

/-- A token on one line is read at its place again. -/
theorem scanAt_reindent (scanned : Scanned c more index kind stop) (isLocal : kind.isLocal = true)
    (inLine : isLineEnd c = false) (width : Nat) (flags : List Bool) :
    ∃ piece, c :: more = piece ++ stop.rest ∧
      reindent width false flags (c :: more) = piece ++ reindent width false flags stop.rest ∧
      ∀ index, ∃ stop', scanAt ⟨reindent width false flags (c :: more), index⟩ =
        (kind, ⟨reindent width false flags stop.rest, stop'⟩) := by
  obtain ⟨piece, split, inLine, again⟩ := scanned.locally inLine isLocal
  have kept : reindent width false flags (piece ++ stop.rest) =
      piece ++ reindent width false flags stop.rest := by
    refine reindent_append width flags _ (fun mem => ?_) fun last => ?_
    · cases inLine _ mem
    · cases inLine _ (List.mem_of_getLast? last.1)
  rw [split, kept]
  exact ⟨piece, rfl, rfl, again _ (sameLine_reindent _ _ _)⟩

theorem keepsToken_local {piece : List Char} {opened : List OpenBrace}
    (scanned : Scanned c (piece ++ stop.rest) index kind stop) (isLocal : kind.isLocal = true)
    (solid : isSolid (c :: (piece ++ stop.rest)) = true)
    (outside : kind = .punctuator "\x7d" → opened.head? ≠ some .substitution) (width : Nat) :
    KeepsToken width opened kind c piece stop.rest := by
  have inLine : isLineEnd c = false := by
    simp only [isSolid, Bool.and_eq_true, Bool.not_eq_true'] at solid
    exact solid.1.1
  refine ⟨piece, rfl, ?_⟩
  have flags := lineStartsFrom_scanned scanned isLocal solid outside
  rw [reindented, reindented, ← flags]
  obtain ⟨line, split, printed, again⟩ := scanAt_reindent scanned isLocal inLine width
    (lineStartsFrom .nested (nestingOf opened) (c :: (piece ++ stop.rest)))
  obtain rfl : c :: piece = line := List.append_cancel_right split
  refine ⟨printed, fun index => ?_⟩
  obtain ⟨stop', read⟩ := again index
  rw [printed] at read
  exact ⟨stop', tokenAt_of_scanAt read outside⟩

end

/-! ## String literals on one line -/

theorem scanAt_quote {quote : Char} (isQuote : quote = '"' ∨ quote = '\'') {index : Nat}
    {text : List Char} {scan : QuotedScan}
    (scanned : scanQuoted quote none [] (index + 1) text = some scan) :
    scanAt ⟨quote :: text, index⟩ =
      (.string (String.ofList (joinSurrogates scan.points)) (surrogatesPaired scan.points),
        scan.stop) := by
  have word : (quote = '\\' || Text.isIdentifierStart quote) = false := by
    rcases isQuote with rfl | rfl <;> decide +kernel
  have hash : quote ≠ '#' := by rcases isQuote with rfl | rfl <;> decide
  have quoted : (quote = '"' || quote = '\'') = true := by simpa using isQuote
  simp only [scanAt, word, hash, quoted, if_true, if_false, Bool.false_eq_true, scanned]

theorem openedBehind_string {quote : Char} (isQuote : quote = '"' ∨ quote = '\'') (value : String)
    (wellFormed : Bool) (opened : List OpenBrace) :
    openedBehind (.string value wellFormed) (some quote) opened = opened := by
  rcases isQuote with rfl | rfl <;> rfl

theorem keepsToken_string {quote : Char} (isQuote : quote = '"' ∨ quote = '\'') {index : Nat}
    {piece : List Char} {scan : QuotedScan}
    (scanned : scanQuoted quote none [] index (piece ++ scan.stop.rest) = some scan)
    (oneLine : '\n' ∉ piece) (width : Nat) (opened : List OpenBrace) :
    KeepsToken width opened
      (.string (String.ofList (joinSurrogates scan.points)) (surrogatesPaired scan.points)) quote
      piece scan.stop.rest := by
  obtain ⟨literal, split, again⟩ := exists_piece_of_scanQuoted scanned
  obtain rfl : piece = literal := List.append_cancel_right split
  refine ⟨piece, rfl, ?_, fun index => ?_⟩
  · obtain ⟨stop, alone⟩ := again [] index
    rw [List.append_nil] at alone
    obtain ⟨braces, outer, eq⟩ := exists_code opened
    rw [openedBehind_string isQuote, reindented, reindented, eq, lineStartsFrom_quote _ _ _ isQuote]
    -- no line starts within the literal, so that the lines behind it are flagged as before
    have flags : lineStartsFrom (.quoted quote) (.code braces :: outer) (piece ++ scan.stop.rest) =
        lineStartsFrom .nested (.code braces :: outer) scan.stop.rest :=
      lineStartsFrom_quoted isQuote alone rfl oneLine _ _
    rw [flags, ← List.cons_append]
    refine reindent_append width _ _ ?_ fun last => ?_
    · rcases isQuote with rfl | rfl <;> simpa using oneLine
    · have ending := getLast?_of_scanQuoted alone rfl
      rw [List.getLast?_cons, ending] at last
      rcases isQuote with rfl | rfl <;> cases last.1
  · obtain ⟨stop, read⟩ := again
      (reindented width (nestingOf (openedBehind _ (some quote) opened)) scan.stop.rest) (index + 1)
    exact ⟨stop, tokenAt_of_scanAt (scanAt_quote isQuote read) (by simp)⟩

/-! ## Template literals -/

theorem scanAt_backtick {index : Nat} {text : List Char} {scan : TemplateScan}
    (scanned : scanTemplate .text true (index + 1) text = some scan) :
    scanAt ⟨'`' :: text, index⟩ = (.template scan.closed scan.wellFormed, scan.stop) := by
  have word : ('`' = '\\' || Text.isIdentifierStart '`') = false := by decide +kernel
  have quoted : ('`' = '"' || '`' = '\'') = false := by decide
  simp only [scanAt, word, quoted, if_true, Bool.false_eq_true, if_false, scanned]
  rfl

theorem meaning_template {c : Char} (kept : c ≠ '\r') {piece : List Char}
    (single : ¬['\r', '\r', '\n'] <:+: c :: piece) (closed wellFormed : Bool) :
    meaning (.template closed wellFormed) (c :: joinReturns piece) =
      meaning (.template closed wellFormed) (c :: piece) := by
  have unified : unifyLines (c :: joinReturns piece) = unifyLines (c :: piece) := by
    rw [← joinReturns_cons fun dropped => kept dropped.1, unifyLines_joinReturns single]
  simp only [meaning, unified]

/-- A piece of a template literal between two of its delimiters. -/
theorem template_reindent {index : Nat} {piece : List Char} {scan : TemplateScan}
    (read : scanTemplate .text true index (piece ++ scan.stop.rest) = some scan) (width : Nat)
    (outer : List OpenBrace) :
    reindent width false (templateFlags (nestingOf outer) .text (piece ++ scan.stop.rest))
        (piece ++ scan.stop.rest) =
      joinReturns piece ++
        reindented width (nestingOf (if scan.closed then outer else .substitution :: outer))
          scan.stop.rest ∧
    ∀ rest index, ∃ stop, scanTemplate .text true index (joinReturns piece ++ rest) =
      some ⟨scan.closed, scan.wellFormed, ⟨rest, stop⟩⟩ := by
  obtain ⟨literal, split, again⟩ := exists_piece_of_scanTemplate read
  obtain rfl : piece = literal := List.append_cancel_right split
  obtain ⟨stop, alone⟩ := again [] index
  rw [List.append_nil] at alone
  refine ⟨?_, fun rest index =>
    scanTemplate_joinReturns (by simp) (by simp) alone rfl rest index⟩
  rw [reindent_template (by simp) (by simp) alone rfl]
  cases scan.closed <;> rfl

/-- A character that opens a template literal, or goes on with it, keeps the piece up to the next
delimiter. -/
theorem keepsToken_template {c : Char} {opened : List OpenBrace} (outer : List OpenBrace)
    (inLine : c ≠ '\n' ∧ c ≠ '\r') {index : Nat} {piece : List Char} {scan : TemplateScan}
    (read : scanTemplate .text true index (piece ++ scan.stop.rest) = some scan)
    (single : ¬['\r', '\r', '\n'] <:+: c :: piece)
    (behind : openedBehind (.template scan.closed scan.wellFormed) (some c) opened =
      if scan.closed then outer else .substitution :: outer)
    (flags : ∀ rest, lineStartsFrom .nested (nestingOf opened) (c :: rest) =
      templateFlags (nestingOf outer) .text rest)
    (again : ∀ {text index scan}, scanTemplate .text true (index + 1) text = some scan →
      tokenAt opened ⟨c :: text, index⟩ = (.template scan.closed scan.wellFormed, scan.stop))
    (width : Nat) :
    KeepsToken width opened (.template scan.closed scan.wellFormed) c piece scan.stop.rest := by
  obtain ⟨printed, readAgain⟩ := template_reindent read width outer
  refine ⟨joinReturns piece, meaning_template inLine.2 single _ _, ?_, fun index => ?_⟩
  · rw [behind, ← printed, reindented, flags,
      reindent_cons _ _ _ inLine.1 fun dropped => inLine.2 dropped.1]
  · obtain ⟨stop, read⟩ := readAgain
      (reindented width (nestingOf (openedBehind _ (some c) opened)) scan.stop.rest) (index + 1)
    exact ⟨stop, again read⟩

theorem keepsToken_opening {opened : List OpenBrace} {index : Nat} {piece : List Char}
    {scan : TemplateScan}
    (read : scanTemplate .text true index (piece ++ scan.stop.rest) = some scan)
    (single : ¬['\r', '\r', '\n'] <:+: '`' :: piece) (width : Nat) :
    KeepsToken width opened (.template scan.closed scan.wellFormed) '`' piece scan.stop.rest := by
  refine keepsToken_template opened (by decide) read single ?_ (fun rest => ?_)
    (fun read => tokenAt_of_scanAt (scanAt_backtick read) (by simp)) width
  · cases scan.closed <;> rfl
  · obtain ⟨braces, outer, eq⟩ := exists_code opened
    rw [eq]
    exact lineStartsFrom_backtick braces outer rest

theorem tokenAt_resumed {outer : List OpenBrace} {text : List Char} {index : Nat}
    {scan : TemplateScan} (read : scanTemplate .text true (index + 1) text = some scan) :
    tokenAt (.substitution :: outer) ⟨'}' :: text, index⟩ =
      (.template scan.closed scan.wellFormed, scan.stop) := by
  have mark : MarkAt "\x7d" text := markAt_closed (by decide) text
  have closes : scanAt ⟨'}' :: text, index⟩ = (.punctuator "\x7d", ⟨text, index + 1⟩) :=
    scanAt_opensMark mark.opens mark.found
  simp [tokenAt, closes, read]

theorem keepsToken_resumed {outer : List OpenBrace} {index : Nat} {piece : List Char}
    {scan : TemplateScan}
    (read : scanTemplate .text true index (piece ++ scan.stop.rest) = some scan)
    (single : ¬['\r', '\r', '\n'] <:+: '}' :: piece) (width : Nat) :
    KeepsToken width (.substitution :: outer) (.template scan.closed scan.wellFormed) '}' piece
      scan.stop.rest := by
  refine keepsToken_template outer (by decide) read single ?_ (fun rest => ?_)
    (fun read => tokenAt_resumed read) width
  · cases scan.closed <;> rfl
  · exact lineStartsFrom_leave _ rest (by simp)

/-! ## Any token -/

/-- A token keeps its meaning, unless it is a string literal that is continued on another line or a
template literal in which a line ends with two carriage returns and a line feed. -/
theorem keepsToken_of_starts {opened : List OpenBrace} {c : Char} {more piece : List Char}
    {index : Nat} {kind : TokenKind} {stop : Cursor} (starts : Starts opened c more index kind stop)
    (split : more = piece ++ stop.rest) (solid : isSolid (c :: more) = true)
    (oneLine : ∀ value wellFormed, kind = .string value wellFormed → '\n' ∉ c :: piece)
    (single : ∀ closed wellFormed, kind = .template closed wellFormed →
      ¬['\r', '\r', '\n'] <:+: c :: piece) (width : Nat) :
    KeepsToken width opened kind c piece stop.rest := by
  cases starts with
  | resumed outer closes inside read =>
    subst inside split
    obtain rfl : c = '}' := by
      cases closes with
      | punctuator _ _ read => exact (List.cons.inj (split_of_punctuator? read).2).1
    exact keepsToken_resumed read (single _ _ rfl) width
  | scanned scanned outside =>
    by_cases isLocal : kind.isLocal = true
    · subst split
      exact keepsToken_local scanned isLocal solid outside width
    cases scanned with
    | string quoted scanned =>
      subst split
      have oneLine := oneLine _ _ rfl
      rw [List.mem_cons, not_or] at oneLine
      exact keepsToken_string quoted scanned oneLine.2 width opened
    | template opens read =>
      subst opens split
      exact keepsToken_opening read (single _ _ rfl) width
    | word | privateName | number | punctuator => exact absurd rfl isLocal

/-! ## Continued string literals -/

/-- Code that starts with a token starts with one of another meaning when its lines are indented
anew. -/
def ChangesToken (width : Nat) (opened : List OpenBrace) (kind : TokenKind) (c : Char)
    (piece rest : List Char) : Prop :=
  ∃ kind' piece' rest', meaning kind' (c :: piece') ≠ meaning kind (c :: piece) ∧
    reindented width (nestingOf opened) (c :: (piece ++ rest)) = c :: (piece' ++ rest') ∧
    ∀ index, ∃ stop, tokenAt opened ⟨c :: (piece' ++ rest'), index⟩ = (kind', ⟨rest', stop⟩)

/-- Spaces are one code unit each, and no part of another code point. -/
theorem count_codeUnits (points : List Nat) : (codeUnits points).count 32 = points.count 32 := by
  induction points with
  | nil => rfl
  | cons n points ih =>
    have unit : (codeUnits [n]).count 32 = [n].count 32 := by
      simp only [codeUnits, List.flatMap_cons, List.flatMap_nil, List.append_nil]
      split
      · rfl
      · rw [List.count_eq_zero.2, List.count_eq_zero.2] <;> simp <;> omega
    have cons : codeUnits (n :: points) = codeUnits [n] ++ codeUnits points := by
      simp [codeUnits]
    rw [cons, List.count_append, ih, unit, ← List.count_append]
    rfl

theorem stringPoints_of_scanQuoted {quote : Char} {index : Nat} {piece : List Char}
    {scan : QuotedScan}
    (scanned : scanQuoted quote none [] index (piece ++ scan.stop.rest) = some scan) :
    stringPoints (quote :: piece) = some scan.points := by
  obtain ⟨literal, split, again⟩ := exists_piece_of_scanQuoted scanned
  obtain rfl : piece = literal := List.append_cancel_right split
  obtain ⟨stop, alone⟩ := again [] 0
  rw [List.append_nil] at alone
  simp [stringPoints, alone]

/-- The value of a string literal that is continued on another line changes. -/
theorem changesToken_continued {quote : Char} (isQuote : quote = '"' ∨ quote = '\'') {index : Nat}
    {piece : List Char} {scan : QuotedScan}
    (scanned : scanQuoted quote none [] index (piece ++ scan.stop.rest) = some scan)
    (continued : '\n' ∈ piece) {width : Nat} (indented : 0 < width) (opened : List OpenBrace)
    (value : String) (wellFormed : Bool) :
    ChangesToken width opened (.string value wellFormed) quote piece scan.stop.rest := by
  obtain ⟨braces, outer, code⟩ := exists_code opened
  obtain ⟨scan', read, more⟩ :=
    spaces_of_continued isQuote scanned rfl continued width (nestingOf opened) [] 0
  have inLine : quote ≠ '\n' ∧ quote ≠ '\r' := by rcases isQuote with rfl | rfl <;> decide
  have flags : lineStartsFrom .nested (nestingOf opened) (quote :: (piece ++ scan.stop.rest)) =
      lineStartsFrom (.quoted quote) (nestingOf opened) (piece ++ scan.stop.rest) := by
    rw [code, lineStartsFrom_quote _ _ _ isQuote]
  obtain ⟨piece', split, again⟩ := exists_piece_of_scanQuoted read
  have printed : reindented width (nestingOf opened) (quote :: (piece ++ scan.stop.rest)) =
      quote :: (piece' ++ scan'.stop.rest) := by
    rw [reindented, flags, reindent_cons _ _ _ inLine.1 fun dropped => inLine.2 dropped.1]
    exact congrArg (quote :: ·) split
  refine ⟨.string (String.ofList (joinSurrogates scan'.points)) (surrogatesPaired scan'.points),
    piece', scan'.stop.rest, fun same => ?_, printed, fun index => ?_⟩
  · rw [split] at read
    have values := congrArg Meaning.value same
    simp only [meaning, stringPoints_of_scanQuoted scanned, stringPoints_of_scanQuoted read,
      Option.map_some, Option.some.injEq] at values
    -- two values with different numbers of spaces differ
    have spaces := congrArg (List.count 32) values
    rw [count_codeUnits, count_codeUnits] at spaces
    simp only [List.count_nil] at more
    omega
  · obtain ⟨stop, read⟩ := again scan'.stop.rest (index + 1)
    exact ⟨stop, tokenAt_of_scanAt (scanAt_quote isQuote read) (by simp)⟩

theorem changesToken_of_starts {opened : List OpenBrace} {c : Char} {more piece : List Char}
    {index : Nat} {kind : TokenKind} {stop : Cursor} (starts : Starts opened c more index kind stop)
    (split : more = piece ++ stop.rest) {value : String} {wellFormed : Bool}
    (isString : kind = .string value wellFormed) (continued : '\n' ∈ c :: piece) {width : Nat}
    (indented : 0 < width) : ChangesToken width opened kind c piece stop.rest := by
  cases starts with
  | resumed => cases isString
  | scanned scanned outside =>
    cases scanned with
    | string quoted scanned =>
      subst split
      have noLine : c ≠ '\n' := by rcases quoted with rfl | rfl <;> decide
      have continued : '\n' ∈ piece := by simpa [Ne.symm noLine] using continued
      exact changesToken_continued quoted scanned continued indented opened _ _
    | word | privateName | template | number | punctuator => cases isString

end ReactiveMarkup.Emission
