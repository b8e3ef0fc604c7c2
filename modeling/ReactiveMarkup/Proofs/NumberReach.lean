import ReactiveMarkup.Proofs.PrintedTokens

/-!
# How far reading a number looks

A number lies on one line, and what it is depends on that line only (`number?_append`).
-/

namespace ReactiveMarkup.Script

/-! ## Lines -/

/-- Whether a text is at the end of a line. -/
def atLineEnd : List Char → Bool
  | [] => true
  | c :: _ => isLineEnd c

/-- Whether two texts agree up to the end of a line. -/
def SameLine (text text' : List Char) : Prop :=
  ∃ line tail tail', text = line ++ tail ∧ text' = line ++ tail' ∧
    atLineEnd tail = true ∧ atLineEnd tail' = true

section

variable {text text' : List Char}

theorem SameLine.cons {c : Char} (same : SameLine text text') :
    SameLine (c :: text) (c :: text') := by
  obtain ⟨line, tail, tail', rfl, rfl, ends, ends'⟩ := same
  exact ⟨c :: line, tail, tail', rfl, rfl, ends, ends'⟩

theorem SameLine.append (piece : List Char) (same : SameLine text text') :
    SameLine (piece ++ text) (piece ++ text') := by
  induction piece with
  | nil => exact same
  | cons c piece ih => exact ih.cons

theorem SameLine.exists_cons {c : Char} (same : SameLine (c :: text) text')
    (inLine : isLineEnd c = false) : ∃ more, text' = c :: more ∧ SameLine text more := by
  obtain ⟨line, tail, tail', eq, rfl, ends, ends'⟩ := same
  cases line with
  | nil =>
    rw [List.nil_append] at eq
    subst eq
    rw [atLineEnd, inLine] at ends
    cases ends
  | cons d line =>
    obtain ⟨rfl, rfl⟩ := List.cons.inj eq
    exact ⟨line ++ tail', rfl, line, tail, tail', rfl, rfl, ends, ends'⟩

/-- Two texts with the same line start with the same character, or with none and a line end. -/
theorem SameLine.head (same : SameLine text text') :
    text.head? = text'.head? ∨ atLineEnd text = true ∧ atLineEnd text' = true := by
  obtain ⟨line, tail, tail', rfl, rfl, ends, ends'⟩ := same
  cases line with
  | nil => exact .inr ⟨ends, ends'⟩
  | cons c line => exact .inl rfl

end

/-- The characters that end a line. -/
def lineEnds : List Char := ['\n', '\r', '\u2028', '\u2029']

theorem mem_lineEnds_of_isLineEnd {c : Char} (lineEnd : isLineEnd c = true) : c ∈ lineEnds := by
  simpa [isLineEnd, lineEnds, or_assoc] using lineEnd

/-- What holds of no line end does not hold of the first character behind a line. -/
theorem head_of_atLineEnd {p : Char → Bool} (never : ∀ c ∈ lineEnds, p c = false)
    {tail : List Char} (ends : atLineEnd tail = true) : tail.head?.any p = false := by
  cases tail with
  | nil => rfl
  | cons c tail => exact never c (mem_lineEnds_of_isLineEnd ends)

theorem takeWhile_of_atLineEnd {p : Char → Bool} (never : ∀ c ∈ lineEnds, p c = false)
    {line tail : List Char} (ends : atLineEnd tail = true) :
    (line ++ tail).takeWhile p = line.takeWhile p := by
  have stops : tail.takeWhile p = [] := by
    have head := head_of_atLineEnd never ends
    cases tail with
    | nil => rfl
    | cons c tail => exact List.takeWhile_cons_of_neg (by simpa using head)
  rw [List.takeWhile_append]
  split
  · rename_i whole
    rw [stops, List.append_nil]
    exact ((List.takeWhile_prefix p).eq_of_length whole).symm
  · rfl

/-! ## Numbers -/

/-- The characters that numbers consist of. -/
def isNumberCharacter (c : Char) : Bool :=
  c.isAlphanum || c = '_' || c = '.' || c = '+' || c = '-'

theorem fits_of_either {c d e : Char} (either : (c = d || c = e) = true)
    (fits : isNumberCharacter d = true) (fits' : isNumberCharacter e = true) :
    isNumberCharacter c = true := by
  rcases Bool.or_eq_true _ _ ▸ either with eq | eq
  · rwa [of_decide_eq_true eq]
  · rwa [of_decide_eq_true eq]

/-- Whether a text starts with that many characters of numbers. -/
def Spans (text : List Char) (n : Nat) : Prop :=
  n ≤ text.length ∧ ∀ c ∈ text.take n, isNumberCharacter c = true

theorem Spans.zero (text : List Char) : Spans text 0 := by simp [Spans]

theorem Spans.add {text : List Char} {n m : Nat} (first : Spans text n)
    (later : Spans (text.drop n) m) : Spans text (n + m) := by
  obtain ⟨long, first⟩ := first
  obtain ⟨long', later⟩ := later
  rw [List.length_drop] at long'
  refine ⟨by omega, fun c mem => ?_⟩
  rw [List.take_add] at mem
  exact (List.mem_append.1 mem).elim (first c) (later c)

theorem Spans.cons {c : Char} {text : List Char} {n : Nat} (fits : isNumberCharacter c = true)
    (later : Spans text n) : Spans (c :: text) (n + 1) := by
  obtain ⟨long, later⟩ := later
  refine ⟨Nat.succ_le_succ long, fun d mem => ?_⟩
  rw [List.take_succ_cons] at mem
  rcases List.mem_cons.1 mem with rfl | mem
  · exact fits
  · exact later d mem

/-- Whether the digits of a radix are digits of numbers, and no line ends. -/
structure IsDigits (isDigit : Char → Bool) : Prop where
  fits : ∀ c, isDigit c = true → isNumberCharacter c = true
  never : ∀ c ∈ lineEnds, isDigit c = false

theorem isDigits_decimal : IsDigits Char.isDigit where
  fits c digit := by simp [isNumberCharacter, Char.isAlphanum, digit]
  never := List.all_iff_forall_prop.1 (by decide)

theorem isDigits_octal : IsDigits isOctal where
  fits c digit := by
    have digit : c.isDigit = true := by
      simp only [isOctal, Bool.and_eq_true, decide_eq_true_eq] at digit
      simp only [Char.isDigit, Bool.and_eq_true, decide_eq_true_eq]
      exact ⟨digit.1, UInt32.le_trans digit.2 (by decide)⟩
    exact isDigits_decimal.fits c digit
  never := List.all_iff_forall_prop.1 (by decide)

theorem isDigits_binary : IsDigits isBinary where
  fits c digit := by
    simp only [isBinary, Bool.or_eq_true, decide_eq_true_eq] at digit
    rcases digit with rfl | rfl <;> decide
  never := List.all_iff_forall_prop.1 (by decide)

/-- A hexadecimal digit is a letter or a digit. -/
theorem isAlphanum_of_hexValue? {c : Char} (digit : (hexValue? c).isSome = true) :
    c.isAlphanum = true := by
  refine Bool.or_eq_true_iff.2 ?_
  unfold hexValue? at digit
  split at digit
  · rename_i range
    exact .inr (Bool.and_eq_true_iff.2 ⟨decide_eq_true range.1, decide_eq_true range.2⟩)
  refine .inl (Bool.or_eq_true_iff.2 ?_)
  split at digit
  · rename_i range
    have small : c.val ≤ 122 := UInt32.le_trans range.2 (by decide)
    exact .inr (Bool.and_eq_true_iff.2 ⟨decide_eq_true range.1, decide_eq_true small⟩)
  split at digit
  · rename_i range
    have small : c.val ≤ 90 := UInt32.le_trans range.2 (by decide)
    exact .inl (decide_eq_true ⟨range.1, small⟩)
  · cases digit

theorem isDigits_hexadecimal : IsDigits fun d => (hexValue? d).isSome where
  fits c digit := by simp [isNumberCharacter, isAlphanum_of_hexValue? digit]
  never := List.all_iff_forall_prop.1 (by decide)

section

variable {isDigit : Char → Bool} (digits : IsDigits isDigit) {line tail : List Char}
include digits

theorem spans_digitRun? {n : Nat} (run : digitRun? isDigit line = some n) : Spans line n := by
  unfold digitRun? at run
  dsimp only at run
  split at run
  · cases run
    refine ⟨(List.takeWhile_prefix _).length_le, fun c mem => ?_⟩
    rw [← List.prefix_iff_eq_take.1 (List.takeWhile_prefix _)] at mem
    have fits := List.all_eq_true.1 List.all_takeWhile c mem
    rw [Bool.or_eq_true] at fits
    rcases fits with digit | separator
    · exact digits.fits c digit
    · simp [isNumberCharacter, of_decide_eq_true separator]
  · cases run

theorem digitRun?_append (ends : atLineEnd tail = true) :
    digitRun? isDigit (line ++ tail) = digitRun? isDigit line := by
  have never : ∀ c ∈ lineEnds, (isDigit c || decide (c = '_')) = false := by
    intro c mem
    have separator : ∀ c ∈ lineEnds, c ≠ '_' := List.all_iff_forall_prop.1 (by decide)
    simp [digits.never c mem, separator c mem]
  unfold digitRun?
  rw [takeWhile_of_atLineEnd never ends]

theorem spans_digitRun1? {n : Nat} (run : digitRun1? isDigit line = some n) : Spans line n := by
  unfold digitRun1? at run
  split at run
  · cases run
  · exact spans_digitRun? digits run

theorem digitRun1?_append (ends : atLineEnd tail = true) :
    digitRun1? isDigit (line ++ tail) = digitRun1? isDigit line := by
  rw [digitRun1?, digitRun1?, digitRun?_append digits ends]

end

section

variable {line tail : List Char}

theorem spans_exponent? {n : Nat} (exponent : exponent? line = some n) : Spans line n := by
  unfold exponent? at exponent
  split at exponent
  · rename_i c rest
    split at exponent
    · rename_i mark
      have fits := fits_of_either mark rfl rfl
      split at exponent
      · rename_i sign digits
        split at exponent
        · rename_i isSign
          obtain ⟨run, counted, rfl⟩ := Option.map_eq_some_iff.1 exponent
          have signFits := fits_of_either isSign rfl rfl
          exact ((spans_digitRun1? isDigits_decimal counted).cons signFits).cons fits
        · obtain ⟨run, counted, rfl⟩ := Option.map_eq_some_iff.1 exponent
          exact (spans_digitRun1? isDigits_decimal counted).cons fits
      · cases exponent
    · cases exponent
      exact .zero _
  · cases exponent
    exact .zero _

theorem exponent?_append (ends : atLineEnd tail = true) :
    exponent? (line ++ tail) = exponent? line := by
  match line with
  | [] =>
    have never : ∀ c ∈ lineEnds, (c = 'e' || c = 'E') = false :=
      List.all_iff_forall_prop.1 (by decide)
    cases tail with
    | nil => rfl
    | cons c tail => simp [exponent?, never c (mem_lineEnds_of_isLineEnd ends)]
  | [c] =>
    -- a line end behind the mark of an exponent is no sign and no digit
    have never : ∀ c ∈ lineEnds, (c = '+' || c = '-') = false :=
      List.all_iff_forall_prop.1 (by decide)
    have run : digitRun1? Char.isDigit ([] ++ tail) = none :=
      digitRun1?_append isDigits_decimal ends
    cases tail with
    | nil => rfl
    | cons d tail =>
      rw [List.nil_append] at run
      simp only [List.cons_append, List.nil_append, exponent?, run,
        never d (mem_lineEnds_of_isLineEnd ends)]
      rfl
  | c :: d :: line =>
    have long : digitRun1? Char.isDigit (d :: line ++ tail) = digitRun1? Char.isDigit (d :: line) :=
      digitRun1?_append isDigits_decimal ends
    rw [List.cons_append] at long
    simp only [List.cons_append, exponent?, long, digitRun1?_append isDigits_decimal ends]

theorem spans_fraction? {n : Nat} (fraction : fraction? line = some n) : Spans line n := by
  unfold fraction? at fraction
  split at fraction
  · rename_i rest
    simp only [Option.bind_eq_bind, Option.bind_eq_some_iff, Option.pure_def,
      Option.some.injEq] at fraction
    obtain ⟨digits, run, exponent, read, rfl⟩ := fraction
    rw [Nat.add_assoc, Nat.add_comm]
    exact ((spans_digitRun? isDigits_decimal run).add (spans_exponent? read)).cons (by decide)
  · exact spans_exponent? fraction

theorem fraction?_of_ne {c : Char} (noDot : c ≠ '.') :
    fraction? (c :: line) = exponent? (c :: line) := by
  unfold fraction?
  split
  · rename_i eq
    exact absurd (List.cons.inj eq).1 noDot
  · rfl

theorem fraction?_append (ends : atLineEnd tail = true) :
    fraction? (line ++ tail) = fraction? line := by
  have exponent : ∀ line, exponent? (line ++ tail) = exponent? line := fun _ =>
    exponent?_append ends
  cases line with
  | nil =>
    have never : ∀ c ∈ lineEnds, c ≠ '.' := List.all_iff_forall_prop.1 (by decide)
    cases tail with
    | nil => rfl
    | cons c tail =>
      exact (fraction?_of_ne (never c (mem_lineEnds_of_isLineEnd ends))).trans (exponent [])
  | cons c line =>
    by_cases dot : c = '.'
    · subst dot
      simp only [List.cons_append, fraction?, digitRun?_append isDigits_decimal ends]
      refine Option.bind_congr fun digits run => ?_
      rw [List.drop_append_of_le_length (spans_digitRun? isDigits_decimal run).1, exponent]
    · rw [List.cons_append, fraction?_of_ne dot, fraction?_of_ne dot, ← List.cons_append, exponent]

/-- What mark comes first does not depend on what follows the line. -/
theorem head?_append_iff (ends : atLineEnd tail = true) {c : Char} (never : c ∉ lineEnds) :
    (line ++ tail).head? = some c ↔ line.head? = some c := by
  cases line with
  | cons d line => rfl
  | nil =>
    have other := head_of_atLineEnd (p := (· == c))
      (fun d mem => beq_eq_false_iff_ne.2 fun eq => never (eq ▸ mem)) ends
    cases tail with
    | nil => rfl
    | cons d tail => simpa using other

theorem radixNumber?_append {isDigit : Char → Bool} (digits : IsDigits isDigit)
    (ends : atLineEnd tail = true) :
    radixNumber? isDigit (line ++ tail) = radixNumber? isDigit line := by
  unfold radixNumber?
  rw [digitRun1?_append digits ends]
  refine Option.bind_congr fun length run => ?_
  simp only [List.drop_append_of_le_length (spans_digitRun1? digits run).1,
    head?_append_iff ends (c := 'n') (by decide)]

theorem zeroLedNumber?_append (ends : atLineEnd tail = true) :
    zeroLedNumber? (line ++ tail) = zeroLedNumber? line := by
  have run : (line ++ tail).takeWhile Char.isDigit = line.takeWhile Char.isDigit :=
    takeWhile_of_atLineEnd isDigits_decimal.never ends
  have long : (line.takeWhile Char.isDigit).length ≤ line.length :=
    (List.takeWhile_prefix _).length_le
  simp only [zeroLedNumber?, run, List.drop_append_of_le_length long,
    head?_append_iff ends (c := 'e') (by decide), head?_append_iff ends (c := '.') (by decide),
    fraction?_append ends, openExponent?, exponent?_append ends]

theorem decimalNumber?_append (ends : atLineEnd tail = true) :
    decimalNumber? (line ++ tail) = decimalNumber? line := by
  unfold decimalNumber?
  rw [digitRun?_append isDigits_decimal ends]
  refine Option.bind_congr fun digits run => ?_
  have long := (spans_digitRun? isDigits_decimal run).1
  simp only [List.drop_append_of_le_length long, head?_append_iff ends (c := 'n') (by decide),
    fraction?_append ends]

theorem number?_of_ne {c : Char} (noZero : c ≠ '0') :
    number? (c :: line) = decimalNumber? (c :: line) := by
  unfold number?
  split
  · rename_i eq
    exact absurd (List.cons.inj eq).1 noZero
  · rfl

theorem number?_append (ends : atLineEnd tail = true) : number? (line ++ tail) = number? line := by
  have decimal : ∀ line, decimalNumber? (line ++ tail) = decimalNumber? line := fun _ =>
    decimalNumber?_append ends
  match line with
  | [] =>
    have never : ∀ c ∈ lineEnds, c ≠ '0' := List.all_iff_forall_prop.1 (by decide)
    cases tail with
    | nil => rfl
    | cons c tail =>
      exact (number?_of_ne (never c (mem_lineEnds_of_isLineEnd ends))).trans (decimal [])
  | [c] =>
    by_cases zero : c = '0'
    · subst zero
      -- a line end is no radix mark, no digit and no separator
      have never : ∀ c ∈ lineEnds, (c = 'x' || c = 'X') = false ∧ (c = 'o' || c = 'O') = false ∧
          (c = 'b' || c = 'B') = false ∧ (c = 'e' || c = 'E') = false ∧ c.isDigit = false ∧
            c ≠ '_' := List.all_iff_forall_prop.1 (by decide)
      cases tail with
      | nil => rfl
      | cons d tail =>
        obtain ⟨x, o, b, e, digit, separator⟩ := never d (mem_lineEnds_of_isLineEnd ends)
        simp only [List.cons_append, List.nil_append, number?, x, o, b, e, digit, separator,
          Bool.false_eq_true, if_false]
        exact decimal ['0']
    · rw [List.cons_append, number?_of_ne zero, number?_of_ne zero, ← List.cons_append, decimal]
  | c :: d :: line =>
    by_cases zero : c = '0'
    · subst zero
      have long := decimal ('0' :: d :: line)
      have led : zeroLedNumber? ('0' :: d :: line ++ tail) = zeroLedNumber? ('0' :: d :: line) :=
        zeroLedNumber?_append ends
      have marked : exponent? (d :: line ++ tail) = exponent? (d :: line) := exponent?_append ends
      simp only [List.cons_append] at long led marked
      simp only [List.cons_append, number?, radixNumber?_append isDigits_hexadecimal ends,
        radixNumber?_append isDigits_octal ends, radixNumber?_append isDigits_binary ends,
        openExponent?, marked, led, long]
    · rw [List.cons_append, number?_of_ne zero, number?_of_ne zero, ← List.cons_append, decimal]

theorem spans_radixNumber? {isDigit : Char → Bool} (digits : IsDigits isDigit) {c : Char}
    (mark : isNumberCharacter c = true) {scan : NumberScan}
    (read : radixNumber? isDigit line = some scan) : Spans ('0' :: c :: line) scan.length := by
  simp only [radixNumber?, Option.bind_eq_bind, Option.bind_eq_some_iff, Option.pure_def,
    Option.some.injEq] at read
  obtain ⟨length, run, rfl⟩ := read
  have spans := spans_digitRun1? digits run
  split
  · rename_i suffix
    obtain ⟨rest, eq⟩ := List.head?_eq_some_iff.1 suffix
    have suffixed : Spans (line.drop length) 1 := by
      rw [eq]
      exact (Spans.zero rest).cons (by decide)
    exact ((spans.add suffixed).cons mark).cons (by decide)
  · exact (spans.cons mark).cons (by decide)

theorem spans_openExponent? {n : Nat} (spans : Spans line n) {scan : NumberScan}
    (read : openExponent? n (line.drop n) = some scan) : Spans line scan.length := by
  obtain ⟨more, exponent, rfl⟩ := Option.map_eq_some_iff.1 read
  exact spans.add (spans_exponent? exponent)

theorem spans_zeroLedNumber? {scan : NumberScan} (read : zeroLedNumber? line = some scan) :
    Spans line scan.length := by
  have spans : Spans line (line.takeWhile Char.isDigit).length := by
    refine ⟨(List.takeWhile_prefix _).length_le, fun c mem => ?_⟩
    rw [← List.prefix_iff_eq_take.1 (List.takeWhile_prefix _)] at mem
    exact isDigits_decimal.fits c (List.all_eq_true.1 List.all_takeWhile c mem)
  unfold zeroLedNumber? at read
  dsimp only at read
  split at read
  · cases read
    exact spans
  · split at read
    · exact spans_openExponent? spans read
    · split at read
      · obtain ⟨more, fraction, rfl⟩ := Option.map_eq_some_iff.1 read
        exact spans.add (spans_fraction? fraction)
      · cases read
        exact spans

theorem spans_decimalNumber? {scan : NumberScan} (read : decimalNumber? line = some scan) :
    Spans line scan.length := by
  simp only [decimalNumber?, Option.bind_eq_bind, Option.bind_eq_some_iff] at read
  obtain ⟨digits, run, read⟩ := read
  have spans := spans_digitRun? isDigits_decimal run
  split at read
  · rename_i suffix
    cases read
    obtain ⟨rest, eq⟩ :=
      List.head?_eq_some_iff.1 (of_decide_eq_true (Bool.and_eq_true _ _ ▸ suffix).1)
    refine spans.add ?_
    rw [eq]
    exact (Spans.zero rest).cons (by decide)
  · simp only [Option.bind_eq_some_iff, Option.pure_def, Option.some.injEq] at read
    obtain ⟨more, fraction, rfl⟩ := read
    exact spans.add (spans_fraction? fraction)

theorem spans_number? {scan : NumberScan} (read : number? line = some scan) :
    Spans line scan.length := by
  unfold number? at read
  split at read
  · rename_i c rest
    split at read
    · rename_i mark
      exact spans_radixNumber? isDigits_hexadecimal (fits_of_either mark rfl rfl) read
    split at read
    · rename_i mark
      exact spans_radixNumber? isDigits_octal (fits_of_either mark rfl rfl) read
    split at read
    · rename_i mark
      exact spans_radixNumber? isDigits_binary (fits_of_either mark rfl rfl) read
    split at read
    · exact spans_openExponent? (n := 1) ((Spans.zero _).cons (by decide)) read
    split at read
    · exact spans_zeroLedNumber? read
    split at read
    · cases read
    · exact spans_decimalNumber? read
  · exact spans_decimalNumber? read

end

theorem isLineEnd_of_isNumberCharacter {c : Char} (fits : isNumberCharacter c = true) :
    isLineEnd c = false := by
  refine Bool.eq_false_iff.2 fun lineEnd => ?_
  have never : ∀ c ∈ lineEnds, isNumberCharacter c = false :=
    List.all_iff_forall_prop.1 (by decide)
  rw [never c (mem_lineEnds_of_isLineEnd lineEnd)] at fits
  cases fits

/-- Whether a number of which a part is read so far cannot stand before a text. -/
def NumberScan.refuses (scan : NumberScan) (rest : List Char) : Bool :=
  rest.head?.any Text.isIdentifierPart && !scan.isOpen

theorem scanNumber_eq {start : Cursor} {scan : NumberScan}
    (read : number? start.rest = some scan) :
    scanNumber start =
      if scan.refuses (start.rest.drop scan.length) then none
      else some (start.skip scan.length) := by
  unfold scanNumber
  simp only [read]
  cases start.rest.drop scan.length with
  | nil => simp [NumberScan.refuses]
  | cons c rest => simp [NumberScan.refuses]

/-! ## Length -/

/-- Whether a number is read where this character stands before a text. -/
def startsNumber (c : Char) (more : List Char) : Bool :=
  c.isDigit || c = '.' && more.head?.any Char.isDigit

theorem pos_digitRun? {isDigit : Char → Bool} {c : Char} {more : List Char} {n : Nat}
    (digit : isDigit c = true) (run : digitRun? isDigit (c :: more) = some n) : 0 < n := by
  unfold digitRun? at run
  dsimp only at run
  split at run
  · cases run
    rw [List.takeWhile_cons_of_pos (by simp [digit]), List.length_cons]
    exact Nat.succ_pos _
  · cases run

theorem pos_decimalNumber? {c : Char} {more : List Char} (opens : startsNumber c more = true)
    {scan : NumberScan} (read : decimalNumber? (c :: more) = some scan) : 0 < scan.length := by
  simp only [decimalNumber?, Option.bind_eq_bind, Option.bind_eq_some_iff] at read
  obtain ⟨digits, run, read⟩ := read
  split at read
  · cases read
    exact Nat.succ_pos _
  · simp only [Option.bind_eq_some_iff, Option.pure_def, Option.some.injEq] at read
    obtain ⟨more', fraction, rfl⟩ := read
    refine Nat.add_pos_iff_pos_or_pos.2 ?_
    by_cases digit : c.isDigit = true
    · exact .inl (pos_digitRun? digit run)
    by_cases some : 0 < digits
    · exact .inl some
    -- without digits there is a fraction
    obtain rfl : digits = 0 := by omega
    obtain rfl : c = '.' := by
      simp only [startsNumber, digit, Bool.false_or, Bool.and_eq_true, decide_eq_true_eq] at opens
      exact opens.1
    simp only [List.drop_zero, fraction?, Option.bind_eq_bind, Option.bind_eq_some_iff,
      Option.pure_def, Option.some.injEq] at fraction
    obtain ⟨digits, -, exponent, -, rfl⟩ := fraction
    exact .inr (by omega)

section

variable {c : Char} {more : List Char} {scan : NumberScan}

theorem pos_radixNumber? {isDigit : Char → Bool} {digits : List Char}
    (read : radixNumber? isDigit digits = some scan) : 0 < scan.length := by
  simp only [radixNumber?, Option.bind_eq_bind, Option.bind_eq_some_iff, Option.pure_def,
    Option.some.injEq] at read
  obtain ⟨length, -, rfl⟩ := read
  dsimp only [NumberScan.sealed]
  split <;> exact Nat.succ_pos _

theorem pos_openExponent? {n : Nat} {text : List Char} (pos : 0 < n)
    (read : openExponent? n text = some scan) : 0 < scan.length := by
  obtain ⟨more, -, rfl⟩ := Option.map_eq_some_iff.1 read
  exact Nat.add_pos_left pos _

theorem pos_zeroLedNumber? (digit : c.isDigit = true)
    (read : zeroLedNumber? (c :: more) = some scan) : 0 < scan.length := by
  have led : 0 < ((c :: more).takeWhile Char.isDigit).length := by
    rw [List.takeWhile_cons_of_pos digit, List.length_cons]
    exact Nat.succ_pos _
  unfold zeroLedNumber? at read
  dsimp only at read
  split at read
  · cases read
    exact led
  split at read
  · exact pos_openExponent? led read
  split at read
  · obtain ⟨more, -, rfl⟩ := Option.map_eq_some_iff.1 read
    exact Nat.add_pos_left led _
  · cases read
    exact led

/-- A number has a character. -/
theorem pos_number? (opens : startsNumber c more = true)
    (read : number? (c :: more) = some scan) : 0 < scan.length := by
  by_cases zero : c = '0'
  · subst zero
    cases more with
    | nil => exact pos_decimalNumber? opens read
    | cons d more =>
      simp only [number?] at read
      split at read
      · exact pos_radixNumber? read
      split at read
      · exact pos_radixNumber? read
      split at read
      · exact pos_radixNumber? read
      split at read
      · exact pos_openExponent? Nat.one_pos read
      split at read
      · exact pos_zeroLedNumber? (by decide) read
      split at read
      · cases read
      · exact pos_decimalNumber? opens read
  · rw [number?_of_ne zero] at read
    exact pos_decimalNumber? opens read

end

end ReactiveMarkup.Script
