import ReactiveMarkup.Proofs.ReadBackPlace

/-!
# Numbers that keep their reading

A number is kept as its text. A decimal one is read as that text again wherever neither a dot nor
part of a name follows it, so in all places but the object of an access (`readsLeaf_decimal`).
-/

namespace ReactiveMarkup.Script

open Reader

/-! ## Scanning -/

/-- Whether a text is a decimal number without a fraction. -/
def isDecimal (piece : List Char) : Bool :=
  !piece.isEmpty && piece.all Char.isDigit && (piece.head? ≠ some '0' || piece.length = 1)

/-- Whether a character continues a decimal number, or must not follow it. -/
def isNumberPart (c : Char) : Bool := c.isDigit || c = '_' || c = '.' || Text.isIdentifierPart c

/-- Whether a text does not continue a decimal number. -/
def endsNumber : List Char → Bool
  | [] => true
  | c :: _ => !isNumberPart c

section

variable {piece rest : List Char}

theorem ne_of_endsNumber {c : Char} (ends : endsNumber (c :: rest) = true) (d : Char)
    (part : isNumberPart d = true) : c ≠ d := by
  rintro rfl
  rw [endsNumber, part] at ends
  cases ends

theorem wellSeparated_digits (digits : ∀ c ∈ piece, c ≠ '_') : wellSeparated piece = true := by
  induction piece with
  | nil => rfl
  | cons c piece ih =>
    have first : c ≠ '_' := digits c List.mem_cons_self
    have others := ih fun c mem => digits c (List.mem_cons_of_mem _ mem)
    rw [wellSeparated]
    · exact others
    · exact fun eq => absurd eq first
    · exact fun _ eq => absurd eq first

theorem digitRun?_digits (digits : ∀ c ∈ piece, c.isDigit = true) (ends : endsNumber rest = true) :
    digitRun? Char.isDigit (piece ++ rest) = some piece.length := by
  have others : ∀ c ∈ piece, c ≠ '_' := by
    rintro c mem rfl
    exact absurd (digits _ mem) (by decide)
  have run : ((piece ++ rest).takeWhile fun c => c.isDigit || c = '_') = piece := by
    rw [List.takeWhile_append_of_pos (by simp +contextual [digits])]
    cases rest with
    | nil => simp
    | cons c rest =>
      simp only [endsNumber, isNumberPart, Bool.not_eq_true', Bool.or_eq_false_iff] at ends
      simp [ends.1.1.1, ends.1.1.2]
  have head : piece.head? ≠ some '_' := fun eq => others _ (List.mem_of_head? eq) rfl
  simp [digitRun?, run, head, wellSeparated_digits others]

theorem fraction?_of_endsNumber (ends : endsNumber rest = true) : fraction? rest = some 0 := by
  cases rest with
  | nil => rfl
  | cons c rest =>
    have noDot : c ≠ '.' := ne_of_endsNumber ends '.' (by decide)
    have noExponent : (c = 'e' || c = 'E') = false := by
      simp [ne_of_endsNumber ends 'e' (by decide), ne_of_endsNumber ends 'E' (by decide)]
    unfold fraction?
    split
    · rename_i eq
      exact absurd (List.cons.inj eq).1 noDot
    · simp only [exponent?, noExponent, Bool.false_eq_true, if_false]

theorem decimalNumber?_digits (digits : ∀ c ∈ piece, c.isDigit = true)
    (ends : endsNumber rest = true) :
    decimalNumber? (piece ++ rest) = some (.sealed piece.length) := by
  -- with the suffix `n` it would be a big integer
  have noSuffix : rest.head? ≠ some 'n' := by
    cases rest with
    | nil => simp
    | cons c rest => simpa using ne_of_endsNumber ends 'n' (by decide)
  unfold decimalNumber?
  rw [digitRun?_digits digits ends]
  simp only [Option.bind_eq_bind, Option.bind_some, List.drop_left, noSuffix, decide_false,
    Bool.false_and, Bool.false_eq_true, if_false, fraction?_of_endsNumber ends]
  rfl

theorem number?_decimal (decimal : isDecimal piece = true) (ends : endsNumber rest = true) :
    number? (piece ++ rest) = some (.sealed piece.length) := by
  simp only [isDecimal, Bool.and_eq_true, Bool.not_eq_true', List.isEmpty_eq_false_iff,
    List.all_eq_true, Bool.or_eq_true, decide_eq_true_eq] at decimal
  obtain ⟨⟨nonempty, digits⟩, zero⟩ := decimal
  have plain := decimalNumber?_digits digits ends
  unfold number?
  split
  · rename_i c more eq
    -- A number that starts with a zero is that zero alone.
    obtain ⟨d, others, rfl⟩ := List.exists_cons_of_ne_nil nonempty
    obtain ⟨rfl, tail⟩ := List.cons.inj eq
    obtain rfl : others = [] := by simpa using zero
    obtain rfl : rest = c :: more := tail
    have other := ne_of_endsNumber ends
    have digit : c.isDigit = false := by
      simp only [endsNumber, isNumberPart, Bool.not_eq_true', Bool.or_eq_false_iff] at ends
      exact ends.1.1.1
    simp only [other 'x' (by decide), other 'X' (by decide), other 'o' (by decide),
      other 'O' (by decide), other 'b' (by decide), other 'B' (by decide), other 'e' (by decide),
      other 'E' (by decide), other '_' (by decide), digit, decide_false, Bool.or_false,
      Bool.false_eq_true, if_false]
    exact plain
  · exact plain

theorem exists_digit_of_isDecimal (decimal : isDecimal piece = true) :
    ∃ c others, piece = c :: others ∧ c.isDigit = true := by
  simp only [isDecimal, Bool.and_eq_true, Bool.not_eq_true', List.isEmpty_eq_false_iff,
    List.all_eq_true] at decimal
  obtain ⟨⟨nonempty, digits⟩, -⟩ := decimal
  obtain ⟨c, others, rfl⟩ := List.exists_cons_of_ne_nil nonempty
  exact ⟨c, others, rfl, digits c List.mem_cons_self⟩

theorem ne_of_isDigit {c d : Char} (digit : c.isDigit = true) (no : d.isDigit = false) : c ≠ d := by
  rintro rfl
  rw [no] at digit
  cases digit

theorem isSolid_decimal (decimal : isDecimal piece = true) : isSolid (piece ++ rest) = true := by
  obtain ⟨c, others, rfl, digit⟩ := exists_digit_of_isDecimal decimal
  have other : ∀ d, d.isDigit = false → c ≠ d := fun _ => ne_of_isDigit digit
  have lineEnd : isLineEnd c = false := by
    simp [isLineEnd, other '\n' (by decide), other '\r' (by decide), other '\u2028' (by decide),
      other '\u2029' (by decide)]
  have space : isSpace c = false := by
    simp only [Char.isDigit, Bool.and_eq_true, decide_eq_true_eq, ge_iff_le,
      UInt32.le_iff_toNat_le] at digit
    have low : 48 ≤ c.toNat := digit.1
    have high : c.toNat ≤ 57 := digit.2
    refine Bool.eq_false_iff.2 fun space => ?_
    simp only [isSpace, spaceRanges, Text.inRanges, Bool.if_false_left, Bool.if_true_left,
      Bool.and_eq_true, Bool.or_eq_true, Bool.not_eq_true', decide_eq_true_eq,
      decide_eq_false_iff_not, Bool.or_false] at space
    omega
  simp [isSolid, lineEnd, space, other '/' (by decide)]

/-- A decimal number before a text that does not continue it is a token. -/
theorem scanAt_decimal {total : Nat} (decimal : isDecimal piece = true)
    (ends : endsNumber rest = true) (room : (piece ++ rest).length ≤ total) :
    scanAt (.before total (piece ++ rest)) = (.number, .before total rest) := by
  have scan : scanNumber (.before total (piece ++ rest)) = some (.before total rest) := by
    have stop := Cursor.skip_before room rfl
    unfold scanNumber
    rw [show (Cursor.before total (piece ++ rest)).rest = piece ++ rest from rfl,
      number?_decimal decimal ends]
    simp only [NumberScan.sealed, List.drop_left, stop]
    cases rest with
    | nil => rfl
    | cons c rest =>
      simp only [endsNumber, isNumberPart, Bool.not_eq_true', Bool.or_eq_false_iff] at ends
      simp only [ends.2, Bool.false_and, Bool.false_eq_true, if_false]
  -- a digit starts no other token
  obtain ⟨c, others, rfl, digit⟩ := exists_digit_of_isDecimal decimal
  have other : ∀ d, d.isDigit = false → c ≠ d := fun _ => ne_of_isDigit digit
  have start : Text.isIdentifierStart c = false := by
    refine Bool.eq_false_iff.2 fun start => ?_
    rw [(isIdentifierStart_solid start).2.2.2.2] at digit
    cases digit
  unfold scanAt
  rw [show (Cursor.before total (c :: others ++ rest)).rest = c :: (others ++ rest) from rfl]
  simp only [start, digit, scan, other '\\' (by decide), other '#' (by decide),
    other '"' (by decide), other '\'' (by decide), other '`' (by decide), decide_false,
    Bool.or_false, Bool.true_or, Bool.false_eq_true, if_false, if_true]

theorem opens_decimal (decimal : isDecimal piece = true) (ends : endsNumber rest = true) :
    Opens (piece ++ rest) .number rest := by
  intro gap blank total room
  have narrow : (piece ++ rest).length ≤ total := by
    rw [List.length_append] at room
    omega
  rw [scanToken_before blank (isSolid_decimal decimal) room, scanAt_decimal decimal ends narrow]

end

/-! ## Reading -/

/-- The phrase of a number that has been read. -/
def numberPhrase (total : Nat) (source : String) (rest : List Char) : Phrase :=
  ⟨.verbatim source [], [], .before total (source.toList ++ rest), total - rest.length, .other,
    none, 0⟩

theorem readChainStart_of_number {g : Grammar} {ctx : Context} {s : ReaderState}
    (kind : s.token.kind = .number) : readChainStart g ctx s = tokenPhrase .other s := by
  have noWord : ∀ word, s.token.isWord word = false := by simp [Token.isWord, kind]
  unfold readChainStart
  rw [run_bind_of (run_current _)]
  simp only [noWord, Bool.false_eq_true, if_false]
  unfold readPrimary
  rw [run_bind_of (run_current _)]
  simp only [kind]

section

variable {ctx : Context} {source : String} {rest : List Char}
  (decimal : isDecimal source.toList = true) (ends : endsNumber rest = true)
include decimal ends

/-- A decimal number at the start of a chain. -/
theorem readsChain_decimal : ReadsChain ctx source.toList (.verbatim source []) rest := by
  have opens := opens_decimal decimal ends
  constructor
  · intro total gap blank room
    simp only [opens gap blank total room]
    exact ⟨rfl, rfl, rfl, rfl⟩
  · intro total notes gap depth fits
    have h := opens gap fits.blank
    have text : (Cursor.before total (source.toList ++ rest)).slice (total - rest.length) =
        source := by
      have room := fits.room
      rw [List.length_append] at room
      rw [Cursor.slice_before (by omega), String.ofList_toList]
    have start : readChainStart (grammar depth) ctx
        (facing total notes (gap ++ (source.toList ++ rest))) =
        some (numberPhrase total source rest, facing total notes rest) := by
      rw [readChainStart_of_number (congrArg Token.kind (h.token fits.room notes))]
      unfold tokenPhrase
      rw [run_bind_of (run_current _), run_bind_of (h.takeKeyword fits.room rfl), h.token fits.room]
      unfold verbatimAs numberPhrase
      rw [run_bind_of (run_lastStop _)]
      simp only [facing, text, run_pure]
      rfl
    refine ⟨numberPhrase total source rest, (grammar depth).limit, Nat.le_add_right _ _, ?_, ?_⟩
    · unfold readChain
      rw [run_bind_of start]
    · refine .of_other rfl rfl ?_ ?_ (.inl rfl)
      · intro target isTarget
        cases isTarget
      · intro name isName
        cases isName

/-- A decimal number keeps its reading in every place where nothing continues it. -/
theorem readsLeaf_decimal {place : Place} (ended : place.Ends rest) :
    place.ReadsLeaf ctx source.toList (.verbatim source []) rest := by
  have leads : LeadsWhole ctx (source.toList ++ rest) := by
    refine leadsWhole_of_opens (opens_decimal decimal ends) (by decide) fun t kind => ?_
    simp [Token.isWord, kind]
  have back : (Expression.verbatim source []).ReadsBack ctx 0 place rest :=
    .of_chain rfl (readsChain_decimal decimal ends) leads (fun shown => absurd rfl shown) ended
  exact ⟨back.reads, back.leads⟩

end

end ReactiveMarkup.Script
