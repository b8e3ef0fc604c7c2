import ReactiveMarkup.Proofs.NumberReach

/-!
# How far reading a token looks

A literal ends at its delimiter, whatever follows. Any other token lies on one line, and what it is
depends on that line only (`Locally`). So a text may change behind the line of a token without
changing the token.
-/

namespace ReactiveMarkup.Script

/-! ## Names -/

theorem isIdentifierPart_lineEnd : ∀ c ∈ lineEnds, Text.isIdentifierPart c = false :=
  List.all_iff_forall_prop.1 (by decide +kernel)

theorem endsName_of_atLineEnd {tail : List Char} (ends : atLineEnd tail = true) :
    endsName tail = true := by
  cases tail with
  | nil => rfl
  | cons c tail =>
    have part := isIdentifierPart_lineEnd c (mem_lineEnds_of_isLineEnd ends)
    have mark : c ≠ '\\' := by
      rintro rfl
      cases ends
    simp [endsName, mark, part]

theorem endsName_of_sameLine {rest rest' : List Char} (same : SameLine rest rest')
    (ends : endsName rest = true) : endsName rest' = true := by
  rcases same.head with head | ⟨-, ends'⟩
  · cases rest' with
    | nil => rfl
    | cons c rest' =>
      cases rest with
      | nil => cases head
      | cons d rest =>
        obtain rfl : d = c := Option.some.inj head
        exact ends
  · exact endsName_of_atLineEnd ends'

/-- A text starts with the characters of a name, which lie on one line and are read as that name
before any text at which a name ends. -/
def NameReads (mode : Option EscapeMode) (taken : List Char) (escaped : Bool) (text : List Char)
    (scan : NameScan) : Prop :=
  endsName scan.stop.rest = true ∧
    ∃ piece, text = piece ++ scan.stop.rest ∧ (∀ c ∈ piece, isLineEnd c = false) ∧
      ∀ rest, endsName rest = true → ∀ index, ∃ stop,
        scanName mode taken escaped index (piece ++ rest) =
          some ⟨scan.text, scan.escaped, ⟨rest, stop⟩⟩

section

variable {mode mode' : Option EscapeMode} {taken taken' : List Char} {escaped escaped' : Bool}
  {scan : NameScan}

theorem NameReads.cons {c : Char} {text : List Char} (inLine : isLineEnd c = false)
    (step : ∀ index rest, scanName mode taken escaped index (c :: rest) =
      scanName mode' taken' escaped' (index + 1) rest)
    (reads : NameReads mode' taken' escaped' text scan) :
    NameReads mode taken escaped (c :: text) scan := by
  obtain ⟨ends, piece, rfl, inLines, again⟩ := reads
  refine ⟨ends, c :: piece, rfl, ?_, fun rest ends' index => ?_⟩
  · intro d mem
    rcases List.mem_cons.1 mem with rfl | mem
    · exact inLine
    · exact inLines d mem
  · rw [List.cons_append, step]
    exact again rest ends' (index + 1)

/-- Where a name ends, the characters taken so far are that name. -/
theorem NameReads.of_endName {index : Nat} {text : List Char}
    (ended : endName taken escaped ⟨text, index⟩ = some scan)
    (ends : taken ≠ [] → endsName text = true) : NameReads none taken escaped text scan := by
  unfold endName at ended
  split at ended
  · cases ended
  · rename_i started
    have started : taken ≠ [] := by simpa using started
    cases ended
    refine ⟨ends started, [], rfl, by simp, fun rest ends' index => ⟨index, ?_⟩⟩
    have again := scanName_spelled (List.all_nil : [].all Text.isIdentifierPart = true) ends'
      started escaped index
    simpa using again

end

theorem isLineEnd_of_fitsName {first : Bool} {c : Char} (fits : fitsName first c = true) :
    isLineEnd c = false := by
  refine Bool.eq_false_iff.2 fun lineEnd => ?_
  have mem := mem_lineEnds_of_isLineEnd lineEnd
  have part := isIdentifierPart_lineEnd c mem
  cases first with
  | false => simp [fitsName, part] at fits
  | true =>
    rw [fitsName, if_pos rfl] at fits
    rw [(isIdentifierStart_solid fits).1] at lineEnd
    cases lineEnd

/-- The characters of escapes that start with `\u`, or are spelled in hexadecimal digits. -/
theorem escapes_of_unicodeMove {mode : EscapeMode} {c : Char} (fine : unicodeMove mode c ≠ .wrong) :
    (hexValue? c).isSome ∨ c = '{' ∨ c = '}' := by
  by_contra outside
  simp only [Option.isSome_iff_ne_none, not_or, not_not] at outside
  obtain ⟨digit, opens, closes⟩ := outside
  cases mode <;> simp [unicodeMove, digitMove, digit, opens, closes] at fine

/-- No escape of a name goes on behind a line end. -/
theorem isLineEnd_of_unicodeMove (mode : EscapeMode) {c : Char}
    (fine : unicodeMove mode c ≠ .wrong) : isLineEnd c = false := by
  refine Bool.eq_false_iff.2 fun lineEnd => ?_
  have outside : ∀ c ∈ lineEnds, ¬((hexValue? c).isSome ∨ c = '{' ∨ c = '}') :=
    List.all_iff_forall_prop.1 (by decide)
  exact outside c (mem_lineEnds_of_isLineEnd lineEnd) (escapes_of_unicodeMove fine)

theorem nameReads_of_scanName {mode : Option EscapeMode} {taken : List Char} {escaped : Bool}
    {index : Nat} {text : List Char} {scan : NameScan}
    (scanned : scanName mode taken escaped index text = some scan) :
    NameReads mode taken escaped text scan := by
  fun_induction scanName mode taken escaped index text with
  | case1 taken escaped index => exact .of_endName scanned fun _ => rfl
  | case2 => cases scanned
  | case3 taken escaped index rest ih =>
    exact (ih scanned).cons (by decide) fun index rest => by rw [scanName, if_pos rfl]
  | case4 taken escaped index c rest plain fits ih =>
    refine (ih scanned).cons (isLineEnd_of_fitsName fits) fun index rest => ?_
    rw [scanName, if_neg plain, if_pos fits]
  | case5 taken escaped index c rest plain unfit =>
    refine .of_endName scanned fun started => ?_
    have part : Text.isIdentifierPart c = false := by simpa [fitsName, started] using unfit
    simp [endsName, part, plain]
  | case6 taken escaped index rest ih =>
    exact (ih scanned).cons (by decide) fun index rest => by rw [scanName, if_pos rfl]
  | case7 => cases scanned
  | case8 mode taken escaped index c rest other mode' move ih =>
    refine (ih scanned).cons (isLineEnd_of_unicodeMove mode (by simp [move])) fun index rest => ?_
    rw [scanName]
    · simp only [move]
    · exact other
  | case9 mode taken escaped index c rest other code move fits ih =>
    refine (ih scanned).cons (isLineEnd_of_unicodeMove mode (by simp [move])) fun index rest => ?_
    rw [scanName]
    · simp only [move, fits, if_true]
    · exact other
  | case10 => cases scanned
  | case11 => cases scanned

/-! ## Punctuators -/

theorem endsMark_of_atLineEnd {tail : List Char} (ends : atLineEnd tail = true) :
    endsMark tail = true := by
  cases tail with
  | nil => rfl
  | cons c tail => exact Bool.or_eq_true_iff.2 (.inr ends)

/-- A text starts with the punctuator that is read. -/
theorem split_of_punctuator? {text : List Char} {mark : String}
    (read : punctuator? text = some mark) :
    mark ∈ punctuators ∧ text = mark.toList ++ text.drop mark.length := by
  have starts : mark.toList.isPrefixOf text = true := by
    have found := List.find?_some read
    rw [startsWithPunctuator, Bool.and_eq_true] at found
    exact found.1
  obtain ⟨rest, rfl⟩ := List.isPrefixOf_iff_prefix.1 starts
  refine ⟨List.mem_of_find?_eq_some read, ?_⟩
  rw [← String.length_toList, List.drop_left]

/-! ## Literals between delimiters -/

/-- The characters of a string literal are read as that literal whatever follows. -/
theorem exists_piece_of_scanQuoted {quote : Char} {mode : Option EscapeMode} {taken : List Nat}
    {index : Nat} {text : List Char} {scan : QuotedScan}
    (scanned : scanQuoted quote mode taken index text = some scan) :
    ∃ piece, text = piece ++ scan.stop.rest ∧ ∀ rest index, ∃ stop,
      scanQuoted quote mode taken index (piece ++ rest) = some ⟨scan.points, ⟨rest, stop⟩⟩ := by
  fun_induction scanQuoted quote mode taken index text with
  | case1 => cases scanned
  | case2 mode taken index c text mode' points move ih =>
    obtain ⟨piece, rfl, again⟩ := ih scanned
    refine ⟨c :: piece, rfl, fun rest index => ?_⟩
    obtain ⟨stop, read⟩ := again rest (index + 1)
    exact ⟨stop, by simp only [List.cons_append, scanQuoted, move, read]⟩
  | case3 mode taken index c text points move =>
    cases scanned
    exact ⟨[c], rfl, fun rest index => ⟨index + 1, by simp [scanQuoted, move]⟩⟩
  | case4 => cases scanned

theorem scanTemplate_next {mode mode' : TemplateMode} {c : Char} {fine : Bool}
    (move : templateMove mode c = (mode', fine)) (goes_on : mode' ≠ .closed)
    (inText : mode' ≠ .substitution) (wellFormed : Bool) (index : Nat) (rest : List Char) :
    scanTemplate mode wellFormed index (c :: rest) =
      scanTemplate mode' (wellFormed && fine) (index + 1) rest := by
  rw [scanTemplate, move]
  cases mode' with
  | closed => exact absurd rfl goes_on
  | substitution => exact absurd rfl inText
  | text | dollar | escape => rfl

/-- The characters of a piece of a template literal are read as that piece whatever follows. -/
theorem exists_piece_of_scanTemplate {mode : TemplateMode} {wellFormed : Bool} {index : Nat}
    {text : List Char} {scan : TemplateScan}
    (scanned : scanTemplate mode wellFormed index text = some scan) :
    ∃ piece, text = piece ++ scan.stop.rest ∧ ∀ rest index, ∃ stop,
      scanTemplate mode wellFormed index (piece ++ rest) =
        some ⟨scan.closed, scan.wellFormed, ⟨rest, stop⟩⟩ := by
  fun_induction scanTemplate mode wellFormed index text with
  | case1 => cases scanned
  | case2 mode wellFormed index c text fine move =>
    cases scanned
    exact ⟨[c], rfl, fun rest index => ⟨index + 1, by simp [scanTemplate, move]⟩⟩
  | case3 mode wellFormed index c text fine move =>
    cases scanned
    exact ⟨[c], rfl, fun rest index => ⟨index + 1, by simp [scanTemplate, move]⟩⟩
  | case4 mode wellFormed index c text mode' fine closed substitution move ih =>
    obtain ⟨piece, rfl, again⟩ := ih scanned
    refine ⟨c :: piece, rfl, fun rest index => ?_⟩
    obtain ⟨stop, read⟩ := again rest (index + 1)
    rw [List.cons_append, scanTemplate_next move closed substitution]
    exact ⟨stop, read⟩

/-! ## Ways to read a token -/

/-- Whether a character starts neither a name nor a literal between delimiters. -/
structure StartsPlain (c : Char) : Prop where
  word : (c = '\\' || Text.isIdentifierStart c) = false
  hash : c ≠ '#'
  quote : (c = '"' || c = '\'') = false
  template : c ≠ '`'

theorem scanAt_plain {c : Char} (plain : StartsPlain c) (more : List Char) (index : Nat) :
    scanAt ⟨c :: more, index⟩ =
      if startsNumber c more then
        match scanNumber ⟨c :: more, index⟩ with
        | some stop => (.number, stop)
        | none => (.invalid, ⟨c :: more, index⟩)
      else
        match punctuator? (c :: more) with
        | some mark => (.punctuator mark, Cursor.skip ⟨c :: more, index⟩ mark.length)
        | none => (.invalid, ⟨c :: more, index⟩) := by
  obtain ⟨word, hash, quoted, template⟩ := plain
  simp only [scanAt, word, hash, quoted, template, startsNumber, Bool.false_eq_true, if_false]
  rfl

/-- The ways to read a token. -/
inductive Scanned (c : Char) (more : List Char) (index : Nat) : TokenKind → Cursor → Prop
  | word {scan : NameScan} (opens : (c = '\\' || Text.isIdentifierStart c) = true)
      (scanned : scanName none [] false index (c :: more) = some scan) :
      Scanned c more index (.word (String.ofList scan.text) scan.escaped) scan.stop
  | privateName {scan : NameScan} (hash : c = '#')
      (scanned : scanName none [] false (index + 1) more = some scan) :
      Scanned c more index (.privateName (String.ofList scan.text)) scan.stop
  | string {scan : QuotedScan} (quoted : c = '"' ∨ c = '\'')
      (scanned : scanQuoted c none [] (index + 1) more = some scan) :
      Scanned c more index
        (.string (String.ofList (joinSurrogates scan.points)) (surrogatesPaired scan.points))
        scan.stop
  | template {scan : TemplateScan} (opens : c = '`')
      (scanned : scanTemplate .text true (index + 1) more = some scan) :
      Scanned c more index (.template scan.closed scan.wellFormed) scan.stop
  | number {stop : Cursor} (plain : StartsPlain c) (opens : startsNumber c more = true)
      (scanned : scanNumber ⟨c :: more, index⟩ = some stop) : Scanned c more index .number stop
  | punctuator {mark : String} (plain : StartsPlain c) (opens : startsNumber c more = false)
      (read : punctuator? (c :: more) = some mark) :
      Scanned c more index (.punctuator mark) (Cursor.skip ⟨c :: more, index⟩ mark.length)

theorem scanned_of_scanAt {c : Char} {more : List Char} {index : Nat} {kind : TokenKind}
    {stop : Cursor} (scan : scanAt ⟨c :: more, index⟩ = (kind, stop)) (valid : kind ≠ .invalid) :
    Scanned c more index kind stop := by
  -- the first character decides which kind of token is scanned
  by_cases word : (c = '\\' || Text.isIdentifierStart c) = true
  · simp only [scanAt, word, if_true] at scan
    split at scan <;> cases scan
    · rename_i scan read
      exact .word word read
    · exact absurd rfl valid
  have word : (c = '\\' || Text.isIdentifierStart c) = false := Bool.eq_false_iff.2 word
  by_cases hash : c = '#'
  · simp only [scanAt, word, if_pos hash, Bool.false_eq_true, if_false] at scan
    split at scan <;> cases scan
    · rename_i scan read
      exact .privateName hash read
    · exact absurd rfl valid
  by_cases quoted : (c = '"' || c = '\'') = true
  · simp only [scanAt, word, if_neg hash, if_pos quoted, Bool.false_eq_true, if_false] at scan
    split at scan <;> cases scan
    · rename_i scan read
      exact .string (by simpa using quoted) read
    · exact absurd rfl valid
  have quoted : (c = '"' || c = '\'') = false := Bool.eq_false_iff.2 quoted
  by_cases template : c = '`'
  · simp only [scanAt, word, if_neg hash, quoted, if_pos template, Bool.false_eq_true,
      if_false] at scan
    split at scan <;> cases scan
    · rename_i scan read
      exact .template template read
    · exact absurd rfl valid
  have plain : StartsPlain c := ⟨word, hash, quoted, template⟩
  rw [scanAt_plain plain] at scan
  split at scan
  · rename_i opens
    split at scan <;> cases scan
    · rename_i read
      exact .number plain opens read
    · exact absurd rfl valid
  · rename_i opens
    split at scan <;> cases scan
    · rename_i mark read
      exact .punctuator plain (Bool.eq_false_iff.2 opens) read
    · exact absurd rfl valid

/-- A token starts with its first character. -/
theorem Scanned.exists_piece {c : Char} {more : List Char} {index : Nat} {kind : TokenKind}
    {stop : Cursor} (scanned : Scanned c more index kind stop) :
    ∃ piece, more = piece ++ stop.rest := by
  have skipped : ∀ {n}, 0 < n →
      ∃ piece, more = piece ++ (Cursor.skip ⟨c :: more, index⟩ n).rest := by
    intro n pos
    obtain ⟨n, rfl⟩ := Nat.exists_eq_add_one.2 pos
    exact ⟨more.take n, (List.take_append_drop _ _).symm⟩
  cases scanned with
  | word opens scanned =>
    obtain ⟨-, piece, split, -, again⟩ := nameReads_of_scanName scanned
    cases piece with
    | nil =>
      -- nothing is no name
      obtain ⟨stop, read⟩ := again [] rfl 0
      cases read
    | cons d piece => exact ⟨piece, (List.cons.inj split).2⟩
  | privateName hash scanned =>
    obtain ⟨-, piece, split, -⟩ := nameReads_of_scanName scanned
    exact ⟨piece, split⟩
  | string quoted scanned =>
    obtain ⟨piece, split, -⟩ := exists_piece_of_scanQuoted scanned
    exact ⟨piece, split⟩
  | template opens scanned =>
    obtain ⟨piece, split, -⟩ := exists_piece_of_scanTemplate scanned
    exact ⟨piece, split⟩
  | number plain opens scanned =>
    cases read : number? (c :: more) with
    | none => simp [scanNumber, read] at scanned
    | some scan =>
      rw [scanNumber_eq read] at scanned
      split at scanned <;> cases scanned
      exact skipped (pos_number? opens read)
  | punctuator plain opens read =>
    have known := (split_of_punctuator? read).1
    have pos : ∀ mark ∈ punctuators, 0 < mark.length := by decide +kernel
    exact skipped (pos _ known)

/-! ## Tokens on one line -/

/-- A text starts with the characters of a token, which lie on one line and are read as that token
wherever the rest of the line is the same. -/
def Locally (kind : TokenKind) (text rest : List Char) : Prop :=
  ∃ piece, text = piece ++ rest ∧ (∀ c ∈ piece, isLineEnd c = false) ∧
    ∀ rest', SameLine rest rest' → ∀ index, ∃ stop,
      scanAt ⟨piece ++ rest', index⟩ = (kind, ⟨rest', stop⟩)

theorem head_any_of_sameLine {p : Char → Bool} (never : ∀ c ∈ lineEnds, p c = false)
    {text text' : List Char} (same : SameLine text text') :
    text.head?.any p = text'.head?.any p := by
  rcases same.head with head | ⟨ends, ends'⟩
  · rw [head]
  · rw [head_of_atLineEnd never ends, head_of_atLineEnd never ends']

section

variable {c : Char} {more : List Char} (solid : isLineEnd c = false)
include solid

/-- Some characters are read locally if they are read wherever the rest of the line is the same, in
a text that starts with the same character then. -/
theorem Locally.intro {kind : TokenKind} {piece rest : List Char}
    (split : c :: more = piece ++ rest) (inLine : ∀ d ∈ piece, isLineEnd d = false)
    (again : ∀ rest' more', SameLine rest rest' → SameLine more more' →
      piece ++ rest' = c :: more' → ∀ index, ∃ stop,
        scanAt ⟨c :: more', index⟩ = (kind, ⟨rest', stop⟩)) :
    Locally kind (c :: more) rest := by
  refine ⟨piece, split, inLine, fun rest' same index => ?_⟩
  have whole := same.append piece
  rw [← split] at whole
  obtain ⟨more', eq, sameMore⟩ := whole.exists_cons solid
  rw [eq]
  exact again rest' more' same sameMore eq index

variable {index : Nat} {scan : NameScan}

theorem locally_word (opens : (c = '\\' || Text.isIdentifierStart c) = true)
    (scanned : scanName none [] false index (c :: more) = some scan) :
    Locally (.word (String.ofList scan.text) scan.escaped) (c :: more) scan.stop.rest := by
  obtain ⟨ends, piece, split, inLine, again⟩ := nameReads_of_scanName scanned
  refine .intro solid split inLine fun rest' more' same _ eq index => ?_
  obtain ⟨stop, read⟩ := again rest' (endsName_of_sameLine same ends) index
  rw [eq] at read
  exact ⟨stop, by simp only [scanAt, opens, if_true, read]⟩

theorem locally_privateName (hash : c = '#')
    (scanned : scanName none [] false index more = some scan) :
    Locally (.privateName (String.ofList scan.text)) (c :: more) scan.stop.rest := by
  obtain ⟨ends, piece, split, inLine, again⟩ := nameReads_of_scanName scanned
  have whole : c :: more = (c :: piece) ++ scan.stop.rest := congrArg (c :: ·) split
  have inLines : ∀ d ∈ c :: piece, isLineEnd d = false := by
    intro d mem
    rcases List.mem_cons.1 mem with rfl | mem
    · exact solid
    · exact inLine d mem
  refine .intro solid whole inLines fun rest' more' same _ eq index => ?_
  obtain ⟨stop, read⟩ := again rest' (endsName_of_sameLine same ends) (index + 1)
  obtain rfl : more' = piece ++ rest' := (List.cons.inj eq).2.symm
  subst hash
  have noWord : ('#' = '\\' || Text.isIdentifierStart '#') = false := by decide +kernel
  exact ⟨stop, by simp only [scanAt, noWord, if_true, read, Bool.false_eq_true, if_false]⟩

end

theorem startsNumber_of_sameLine {c : Char} {more more' : List Char} (same : SameLine more more') :
    startsNumber c more = startsNumber c more' := by
  rw [startsNumber, startsNumber, head_any_of_sameLine isDigits_decimal.never same]

section

variable {c : Char} {more : List Char} (plain : StartsPlain c) (solid : isLineEnd c = false)
include plain solid

theorem locally_number (opens : startsNumber c more = true) {index : Nat} {stop : Cursor}
    (scanned : scanNumber ⟨c :: more, index⟩ = some stop) :
    Locally .number (c :: more) stop.rest := by
  cases read : number? (c :: more) with
  | none => simp [scanNumber, read] at scanned
  | some scan =>
    rw [scanNumber_eq read] at scanned
    split at scanned
    · cases scanned
    · rename_i accepted
      cases scanned
      obtain ⟨long, fits⟩ := spans_number? read
      have split : c :: more = (c :: more).take scan.length ++ (c :: more).drop scan.length :=
        (List.take_append_drop _ _).symm
      have length := List.length_take_of_le long
      simp only [Cursor.skip] at accepted ⊢
      generalize (c :: more).take scan.length = piece at fits split length
      generalize (c :: more).drop scan.length = rest at accepted split ⊢
      refine .intro solid split
        (fun d mem => isLineEnd_of_isNumberCharacter (fits d mem))
        fun rest' more' same sameMore eq index => ?_
      -- a number reads no further than its line, so the same line gives the same number
      have read' : number? (c :: more') = some scan := by
        obtain ⟨line, tail, tail', rfl, rfl, ends, ends'⟩ := same
        rw [split, ← List.append_assoc, number?_append ends] at read
        rw [← eq, ← List.append_assoc, number?_append ends', read]
      have behind : (c :: more').drop scan.length = rest' := by
        rw [← eq, ← length, List.drop_left]
      have accepted' : scan.refuses rest' = false := by
        rw [NumberScan.refuses, ← head_any_of_sameLine isIdentifierPart_lineEnd same]
        simpa [NumberScan.refuses] using accepted
      refine ⟨index + scan.length, ?_⟩
      rw [scanAt_plain plain, ← startsNumber_of_sameLine sameMore, if_pos opens,
        scanNumber_eq read', behind, accepted']
      simp [Cursor.skip, behind]

theorem locally_punctuator (opens : startsNumber c more = false) {mark : String}
    (read : punctuator? (c :: more) = some mark) :
    Locally (.punctuator mark) (c :: more) ((c :: more).drop mark.length) := by
  obtain ⟨known, split⟩ := split_of_punctuator? read
  generalize (c :: more).drop mark.length = rest at split ⊢
  refine .intro solid split (fun d mem => (punctuators_solid mark known d mem).2)
    fun rest' more' same sameMore eq index => ?_
  have read' : punctuator? (c :: more') = some mark := by
    obtain ⟨line, tail, tail', rfl, rfl, ends, ends'⟩ := same
    rw [split, ← List.append_assoc, punctuator?_append (endsMark_of_atLineEnd ends)] at read
    rw [← eq, ← List.append_assoc, punctuator?_append (endsMark_of_atLineEnd ends'), read]
  have behind : (c :: more').drop mark.length = rest' := by
    rw [← eq, ← String.length_toList, List.drop_left]
  refine ⟨index + mark.length, ?_⟩
  rw [scanAt_plain plain, ← startsNumber_of_sameLine sameMore, opens, read']
  simp [Cursor.skip, behind]

end

/-- Whether a kind is that of a token that reaches no further than its line. -/
def TokenKind.isLocal : TokenKind → Bool
  | .word .. | .privateName _ | .number | .punctuator _ => true
  | _ => false

/-- A token that is no literal between delimiters is read locally. -/
theorem Scanned.locally {c : Char} {more : List Char} {index : Nat} {kind : TokenKind}
    {stop : Cursor} (scanned : Scanned c more index kind stop) (solid : isLineEnd c = false)
    (isLocal : kind.isLocal = true) : Locally kind (c :: more) stop.rest := by
  cases scanned with
  | word opens scanned => exact locally_word solid opens scanned
  | privateName hash scanned => exact locally_privateName solid hash scanned
  | string => cases isLocal
  | template => cases isLocal
  | number plain opens scanned => exact locally_number plain solid opens scanned
  | punctuator plain opens read => exact locally_punctuator plain solid opens read

end ReactiveMarkup.Script
