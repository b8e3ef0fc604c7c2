import ReactiveMarkup.Proofs.ReindentedToken

/-!
# Literals in printed script text

A statement of script text is printed with each of its lines indented. This leaves the tokens of
the text and their values as they are if no string literal in it is continued on another line
(`Reindentation.kept`). If one is, its value takes up the indentation (`Reindentation.changed`).
Whatever else differs is blank (`Reindentation.layout`). Lines must end as the scanner expects: it
knows line feeds only, and the lines of the text have lost one carriage return before them.
-/

namespace ReactiveMarkup.Emission

open Markup (OpenBrace)
open Script

/-! ## Items -/

/-- Whether a kind is that of a string literal. -/
def isString : TokenKind → Bool
  | .string .. => true
  | _ => false

/-- Whether a kind is that of a piece of a template literal. -/
def isTemplate : TokenKind → Bool
  | .template .. => true
  | _ => false

theorem exists_string {kind : TokenKind} (string : isString kind = true) :
    ∃ value wellFormed, kind = .string value wellFormed := by
  cases kind with
  | string value wellFormed => exact ⟨value, wellFormed, rfl⟩
  | word | privateName | number | punctuator | template | regularExpression | invalid | ended =>
    cases string

/-- A string literal is continued on another line. -/
def IsContinued (item : Item) : Prop := isString item.kind = true ∧ '\n' ∈ item.source

instance (item : Item) : Decidable (IsContinued item) := inferInstanceAs (Decidable (_ ∧ _))

/-- The line ends in front of an item and in it are those that the scanner and the splitting into
lines know: a line comment does not end with another one, and no line of a template literal ends
with two carriage returns. -/
structure LineEndsFit (item : Item) : Prop where
  comments : lineCommentsFit .blank item.gap = true
  texts : isTemplate item.kind = true → ¬['\r', '\r', '\n'] <:+: item.source

instance (item : Item) : Decidable (LineEndsFit item) :=
  decidable_of_iff (_ ∧ _) ⟨fun both => ⟨both.1, both.2⟩, fun fits => ⟨fits.1, fits.2⟩⟩

/-! ## The first item -/

section

variable {opened : List OpenBrace} {text : List Char}

theorem closed_of_firstItem (valid : (firstItem opened text).1.kind ≠ .invalid) :
    (skipGap .blank false 0 text).closed = true := by
  by_contra unclosed
  refine valid ?_
  simp [firstItem, tokenIn, scanToken, unclosed, Token.isPunctuator]

theorem kind_firstItem (closed : (skipGap .blank false 0 text).closed = true) :
    (firstItem opened text).1.kind = (tokenAt opened (skipGap .blank false 0 text).stop).1 :=
  (tokenIn_eq opened closed).2.1

/-- The first item of a text whose comments are closed. -/
theorem firstItem_eq (closed : (skipGap .blank false 0 text).closed = true) {gap : List Char}
    {start : Cursor} (stops : (skipGap .blank false 0 text).stop = start)
    (split : text = gap ++ start.rest) {kind : TokenKind} {stop : Cursor}
    (read : tokenAt opened start = (kind, stop)) {source : List Char}
    (within : start.rest = source ++ stop.rest) :
    firstItem opened text = (⟨gap, kind, source⟩, stop.rest) := by
  obtain ⟨starts, isKind, ends⟩ := tokenIn_eq opened closed
  rw [stops] at starts isKind ends
  rw [read] at isKind ends
  have isGap : textBefore start.rest text = gap := by rw [split, textBefore_append]
  have isSource : textBefore stop.rest start.rest = source := by rw [within, textBefore_append]
  simp only [firstItem, starts, isKind, ends, isGap, isSource]

/-- A text starts with blanks and comments and a token behind them. -/
theorem exists_token (goes_on : (firstItem opened text).1.kind ≠ .ended)
    (valid : (firstItem opened text).1.kind ≠ .invalid) :
    ∃ gap c piece kind index stop, firstItem opened text = (⟨gap, kind, c :: piece⟩, stop.rest) ∧
      (skipGap .blank false 0 text).stop.rest = c :: (piece ++ stop.rest) ∧
      isSolid (c :: (piece ++ stop.rest)) = true ∧
      Starts opened c (piece ++ stop.rest) index kind stop := by
  have closed := closed_of_firstItem valid
  have solid := isSolid_skipGap closed
  obtain ⟨gap, split⟩ := skipGap_suffix .blank false 0 text
  generalize stops : (skipGap .blank false 0 text).stop = start at solid split
  obtain ⟨⟨⟩ | ⟨c, more⟩, index⟩ := start
  · -- where the text ends there is no token
    have ends : tokenAt opened ⟨[], index⟩ = (.ended, ⟨[], index⟩) :=
      tokenAt_of_scanAt rfl (by simp)
    refine absurd ?_ goes_on
    rw [kind_firstItem closed, stops, ends]
  · obtain ⟨⟨kind, stop⟩, read⟩ : ∃ scan, tokenAt opened ⟨c :: more, index⟩ = scan := ⟨_, rfl⟩
    rw [kind_firstItem closed, stops, read] at valid
    have starts := starts_of_tokenAt read valid
    obtain ⟨piece, rfl⟩ := starts.exists_piece
    exact ⟨gap, c, piece, kind, index, stop, firstItem_eq closed stops split.symm read rfl, rfl,
      solid, starts⟩

/-- At the end of a text there is no token. -/
theorem rest_of_ended (ends : (firstItem opened text).1.kind = .ended) :
    (skipGap .blank false 0 text).closed = true ∧ (skipGap .blank false 0 text).stop.rest = [] := by
  have valid : (firstItem opened text).1.kind ≠ .invalid := by simp [ends]
  have closed := closed_of_firstItem valid
  refine ⟨closed, ?_⟩
  rw [kind_firstItem closed] at ends
  generalize (skipGap .blank false 0 text).stop = start at ends
  obtain ⟨⟨⟩ | ⟨c, more⟩, index⟩ := start
  · rfl
  · have starts := starts_of_tokenAt (Prod.ext ends rfl) (by simp)
    cases starts with
    | scanned scanned => cases scanned

end

/-! ## Indented text -/

/-- In a text, blanks and comments lead to what stands behind those of another text, with its lines
indented. -/
def Follows (width : Nat) (opened : List OpenBrace) (text text' : List Char) : Prop :=
  LeadsTo .blank text'
    (reindentedBehind width (nestingOf opened) (skipGap .blank false 0 text).stop.rest)

section

variable {opened : List OpenBrace} {text text' : List Char} {width : Nat}

theorem leadsAnywhere_of_fits (valid : (firstItem opened text).1.kind ≠ .invalid)
    (fits : lineCommentsFit .blank (firstItem opened text).1.gap = true) (width : Nat) :
    LeadsAnywhere width (nestingOf opened) .blank text
      (reindentedBehind width (nestingOf opened) (skipGap .blank false 0 text).stop.rest) := by
  have closed := closed_of_firstItem valid
  have isGap : (firstItem opened text).1.gap =
      textBefore (skipGap .blank false 0 text).stop.rest text := by
    rw [firstItem, (tokenIn_eq opened closed).1]
  have before : ∀ {gap start}, gap ++ start = text → textBefore start text = gap := by
    rintro gap start rfl
    exact textBefore_append gap start
  obtain ⟨gap, split⟩ := skipGap_suffix .blank false 0 text
  rw [isGap, before split] at fits
  obtain ⟨braces, outer, code⟩ := exists_code opened
  rw [code]
  exact leadsTo_reindent width braces outer closed (by simp) split.symm fits

theorem follows_reindented (valid : (firstItem opened text).1.kind ≠ .invalid)
    (fits : lineCommentsFit .blank (firstItem opened text).1.gap = true) (width : Nat) :
    Follows width opened text (reindented width (nestingOf opened) text) :=
  leadsAnywhere_of_fits valid fits width false (by simp)

theorem follows_reindentLine (valid : (firstItem opened text).1.kind ≠ .invalid)
    (fits : lineCommentsFit .blank (firstItem opened text).1.gap = true) (width : Nat) :
    Follows width opened text
      (reindentLine width (false :: lineStartsFrom .nested (nestingOf opened) text) text) := by
  refine .line (show StartsLine .blank from trivial) rfl ?_ fun skip skips =>
    leadsAnywhere_of_fits valid fits width skip fun isSkip => ⟨trivial, skips isSkip⟩
  rintro rfl
  exact fun _ _ => ⟨rfl, rfl⟩

/-- The first item of an indented text means what that of the text means, and the braces behind it
and the text behind it are indented alike. -/
structure KeepsFirst (width : Nat) (opened : List OpenBrace) (text text' : List Char) : Prop where
  kind : (firstItem opened text').1.kind = (firstItem opened text).1.kind
  meaning : (firstItem opened text').1.meaning = (firstItem opened text).1.meaning
  braces : (firstItem opened text').1.openedBehind opened =
    (firstItem opened text).1.openedBehind opened
  behind : (firstItem opened text').2 =
    reindented width (nestingOf ((firstItem opened text).1.openedBehind opened))
      (firstItem opened text).2

theorem Follows.leadsTo (follows : Follows width opened text text') {c : Char} {more : List Char}
    (start : (skipGap .blank false 0 text).stop.rest = c :: more) :
    LeadsTo .blank text' (reindented width (nestingOf opened) (c :: more)) := by
  rwa [Follows, start, reindentedBehind, if_neg (List.cons_ne_nil _ _)] at follows

theorem Follows.ended (follows : Follows width opened text text')
    (ends : (firstItem opened text).1.kind = .ended) :
    (firstItem opened text').1.kind = .ended ∧
      (firstItem opened text').1.meaning = (firstItem opened text).1.meaning := by
  obtain ⟨closed, start⟩ := rest_of_ended ends
  have leads : LeadsTo .blank text' [] := by
    rwa [Follows, start, reindentedBehind, if_pos rfl] at follows
  have first : (firstItem opened text).1.source = [] := by
    rw [firstItem, (tokenIn_eq opened closed).1, start]
    exact List.take_nil
  have first' : firstItem opened text' = (⟨textBefore [] text', .ended, []⟩, []) :=
    firstItem_of_leadsTo leads fun index => ⟨index, tokenAt_of_scanAt rfl (by simp)⟩
  refine ⟨by rw [first'], ?_⟩
  rw [Item.meaning, Item.meaning, first', ends, first]

theorem Follows.keepsFirst (follows : Follows width opened text text')
    (goes_on : (firstItem opened text).1.kind ≠ .ended)
    (valid : (firstItem opened text).1.kind ≠ .invalid)
    (fits : LineEndsFit (firstItem opened text).1)
    (oneLine : ¬IsContinued (firstItem opened text).1) : KeepsFirst width opened text text' := by
  obtain ⟨gap, c, piece, kind, index, stop, first, start, solid, starts⟩ :=
    exists_token goes_on valid
  rw [first] at fits oneLine
  -- the token keeps its meaning, and what stands in front of it still leads to it
  obtain ⟨piece', same, printed, read⟩ := keepsToken_of_starts starts rfl solid
    (fun value wellFormed kind continued => oneLine ⟨by rw [kind]; rfl, continued⟩)
    (fun closed wellFormed kind => fits.texts (by rw [kind]; rfl)) width
  have leads := follows.leadsTo start
  rw [printed] at leads
  have first' := firstItem_of_leadsTo leads read
  rw [← List.cons_append, textBefore_append] at first'
  constructor
  · rw [first', first]
  · rw [first', first]
    exact same
  · rw [first', first]
    rfl
  · rw [first', first]
    rfl

theorem Follows.changesFirst (follows : Follows width opened text text')
    (valid : (firstItem opened text).1.kind ≠ .invalid)
    (continued : IsContinued (firstItem opened text).1) (indented : 0 < width) :
    (firstItem opened text').1.meaning ≠ (firstItem opened text).1.meaning := by
  have goes_on : (firstItem opened text).1.kind ≠ .ended := by
    intro ends
    have isString := continued.1
    rw [ends] at isString
    cases isString
  obtain ⟨gap, c, piece, kind, index, stop, first, start, -, starts⟩ := exists_token goes_on valid
  rw [first] at continued
  obtain ⟨value, wellFormed, isString⟩ := exists_string continued.1
  obtain ⟨kind', piece', rest', differs, printed, read⟩ :=
    changesToken_of_starts starts rfl isString continued.2 indented
  have leads := follows.leadsTo start
  rw [printed] at leads
  have first' := firstItem_of_leadsTo leads read
  rw [← List.cons_append, textBefore_append] at first'
  rw [first', first]
  exact differs

end

/-! ## All items -/

theorem first_of_reads {opened : List OpenBrace} {text : List Char} {items : List Item}
    (reads : Reads opened text items) :
    (firstItem opened text).1 ∈ items ∧ (firstItem opened text).1.kind ≠ .invalid := by
  cases reads with
  | ended ends => exact ⟨List.mem_singleton_self _, by simp [ends]⟩
  | token _ valid => exact ⟨List.mem_cons_self, valid⟩

theorem follows_of_reads {opened : List OpenBrace} {text : List Char} {items : List Item}
    (reads : Reads opened text items) (fits : ∀ item ∈ items, LineEndsFit item) (width : Nat) :
    Follows width opened text (reindented width (nestingOf opened) text) := by
  obtain ⟨mem, valid⟩ := first_of_reads reads
  exact follows_reindented valid (fits _ mem).comments width

/-- An indented text is read as items of the same meanings, if no string literal is continued on
another line. -/
theorem exists_reads_of_follows {opened : List OpenBrace} {text text' : List Char}
    {items : List Item} {width : Nat} (reads : Reads opened text items)
    (fits : ∀ item ∈ items, LineEndsFit item) (oneLine : ∀ item ∈ items, ¬IsContinued item)
    (follows : Follows width opened text text') :
    ∃ items', Reads opened text' items' ∧ items'.map Item.meaning = items.map Item.meaning := by
  induction reads generalizing text' with
  | @ended opened text ends =>
    obtain ⟨ends', same⟩ := follows.ended ends
    exact ⟨_, .ended ends', by rw [List.map_singleton, List.map_singleton, same]⟩
  | @token opened text items goes_on valid behind ih =>
    rw [List.forall_mem_cons] at fits oneLine
    have first := follows.keepsFirst goes_on valid fits.1 oneLine.1
    obtain ⟨items', behind', same⟩ := ih fits.2 oneLine.2 (follows_of_reads behind fits.2 width)
    rw [← first.behind, ← first.braces] at behind'
    refine ⟨_, .token (first.kind ▸ goes_on) (first.kind ▸ valid) behind', ?_⟩
    rw [List.map_cons, List.map_cons, first.meaning, same]

/-- An indented text is not read as items of the same meanings, if a string literal is continued on
another line. -/
theorem meanings_ne_of_follows {opened : List OpenBrace} {text text' : List Char}
    {items : List Item} {width : Nat} (reads : Reads opened text items)
    (fits : ∀ item ∈ items, LineEndsFit item) (continued : ∃ item ∈ items, IsContinued item)
    (indented : 0 < width) (follows : Follows width opened text text') {items' : List Item}
    (reads' : Reads opened text' items') : items'.map Item.meaning ≠ items.map Item.meaning := by
  induction reads generalizing text' items' with
  | @ended opened text ends =>
    obtain ⟨item, mem, string, -⟩ := continued
    rw [List.mem_singleton.1 mem, ends] at string
    cases string
  | @token opened text items goes_on valid behind ih =>
    rw [List.forall_mem_cons] at fits
    by_cases here : IsContinued (firstItem opened text).1
    · -- whatever follows, the first items differ
      have differs := follows.changesFirst valid here indented
      cases reads' <;> exact fun same => differs (List.cons.inj same).1
    · have first := follows.keepsFirst goes_on valid fits.1 here
      have later : ∃ item ∈ items, IsContinued item := by
        obtain ⟨item, mem, continued⟩ := continued
        rcases List.mem_cons.1 mem with rfl | mem
        · exact absurd continued here
        · exact ⟨item, mem, continued⟩
      cases reads' with
      | ended ends => exact absurd (first.kind.symm.trans ends) goes_on
      | token _ _ behind' =>
        rw [first.behind, first.braces] at behind'
        exact fun same =>
          ih fits.2 later (follows_of_reads behind fits.2 width) behind' (List.cons.inj same).2

/-! ## Printed statements -/

/-- What the printed form of script text with the given items has in common with it. -/
structure Reindentation (depth : Nat) (code : String) (items : List Item) : Prop where
  /-- Without string literals that are continued on another line the tokens keep their meanings. -/
  kept : (∀ item ∈ items, ¬IsContinued item) →
    ∃ items', Reads [] ((Statement.verbatim code).print depth).toList items' ∧
      items'.map Item.meaning = items.map Item.meaning
  /-- With one they do not, where there is an indentation. -/
  changed : 0 < depth → (∃ item ∈ items, IsContinued item) →
    ∀ items', Reads [] ((Statement.verbatim code).print depth).toList items' →
      items'.map Item.meaning ≠ items.map Item.meaning
  /-- The characters are the same apart from blanks and line ends. -/
  layout : visible ((Statement.verbatim code).print depth).toList = visible code.toList

/-- Printing script text keeps its tokens and their values if no string literal in it is continued
on another line, and below the top level only then. -/
theorem reindentation_of_verbatim {code : String} {items : List Item}
    (reads : Reads [] code.toList items) (fits : ∀ item ∈ items, LineEndsFit item) (depth : Nat) :
    Reindentation depth code items := by
  have printed : ((Statement.verbatim code).print depth).toList =
      reindentLine (2 * depth) (templateLineStarts code.toList) code.toList :=
    toList_printVerbatim depth code
  have follows :
      Follows (2 * depth) [] code.toList ((Statement.verbatim code).print depth).toList := by
    rw [printed]
    obtain ⟨mem, valid⟩ := first_of_reads reads
    exact follows_reindentLine valid (fits _ mem).comments (2 * depth)
  exact {
    kept := fun oneLine => exists_reads_of_follows reads fits oneLine follows
    changed := fun indented continued items' reads' =>
      meanings_ne_of_follows reads fits continued (by omega) follows reads'
    layout := visible_printVerbatim depth code }

/-- A template literal with a substitution, and a comment. -/
theorem reindentation_of_template :
    let code := "f(`a\n$\x7bb\x7d`) // c"
    let items : List Item :=
      [⟨[], .word "f" false, "f".toList⟩, ⟨[], .punctuator "(", "(".toList⟩,
        ⟨[], .template false true, "`a\n$\x7b".toList⟩, ⟨[], .word "b" false, "b".toList⟩,
        ⟨[], .template true true, "\x7d`".toList⟩, ⟨[], .punctuator ")", ")".toList⟩,
        ⟨" // c".toList, .ended, []⟩]
    Reads [] code.toList items ∧ (∀ item ∈ items, LineEndsFit item) ∧
      (∀ item ∈ items, ¬IsContinued item) ∧
      (Statement.verbatim code).print 1 = "  f(`a\n$\x7bb\x7d`) // c\n" ∧
      Reindentation 1 code items := by
  intro code items
  have reads : Reads [] code.toList items := by
    have read : scanItems 7 [] code.toList = some items := by decide +kernel
    exact reads_of_scanItems read
  have fits : ∀ item ∈ items, LineEndsFit item := by decide +kernel
  exact ⟨reads, fits, by decide +kernel, by decide +kernel, reindentation_of_verbatim reads fits 1⟩

/-- A string literal that is continued on another line takes up the indentation of that line: `"ab"`
becomes `"a  b"`. -/
theorem indentation_in_literal :
    let code := "let s = \"a\\\nb\";"
    (Statement.verbatim code).print 1 = "  let s = \"a\\\n  b\";\n" ∧
      ∃ items, Reads [] code.toList items ∧
        (items.map Item.meaning)[3]? = some ⟨.string "ab" true, [], some [97, 98]⟩ ∧
        ∀ items', Reads [] ((Statement.verbatim code).print 1).toList items' →
          (items'.map Item.meaning)[3]? =
            some ⟨.string "a  b" true, [], some [97, 32, 32, 98]⟩ := by
  intro code
  have value : (scanItems 6 [] code.toList).map (fun items => (items.map Item.meaning)[3]?) =
      some (some ⟨.string "ab" true, [], some [97, 98]⟩) := by decide +kernel
  have value' : (scanItems 6 [] ((Statement.verbatim code).print 1).toList).map
      (fun items => (items.map Item.meaning)[3]?) =
        some (some ⟨.string "a  b" true, [], some [97, 32, 32, 98]⟩) := by decide +kernel
  obtain ⟨items, read, third⟩ := Option.map_eq_some_iff.1 value
  obtain ⟨items', read', third'⟩ := Option.map_eq_some_iff.1 value'
  refine ⟨by decide +kernel, items, reads_of_scanItems read, third, fun others reads => ?_⟩
  rw [reads.unique (reads_of_scanItems read'), third']

end ReactiveMarkup.Emission
