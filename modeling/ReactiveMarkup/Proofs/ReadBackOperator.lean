import ReactiveMarkup.Proofs.ReadBackChain

/-!
# Reading back operators

Operands, operations, assignments and sequences, from the tightest to the loosest. An operand ends
where a token follows that cannot continue it; an operation of some level ends where no operator
follows that binds tighter.
-/

namespace ReactiveMarkup.Script

open Reader

/-! ## What follows -/

/-- Whether a token of the given kind follows on the same line. -/
def Follows (rest : List Char) (kind : TokenKind) : Prop :=
  ∃ start after, Shows rest kind start after false

theorem Follows.token {rest : List Char} {kind : TokenKind} (follows : Follows rest kind)
    {total : Nat} (room : rest.length ≤ total) (notes : Notes) :
    (facing total notes rest).token.kind = kind ∧
      (facing total notes rest).token.onNewLine = false := by
  obtain ⟨start, after, h⟩ := follows
  rw [h.token room]
  exact ⟨rfl, rfl⟩

/-- Whether a token does not continue a chain. -/
def stopsChain : TokenKind → Bool
  | .punctuator mark => !([".", "?.", "[", "("].contains mark)
  | .template _ _ => false
  | _ => true

/-- Whether a token neither continues nor updates an operand. -/
def stopsOperand (kind : TokenKind) : Bool :=
  stopsChain kind && kind != .punctuator "++" && kind != .punctuator "--"

theorem readLinks_of_stops {g : Grammar} {ctx : Context} {s : ReaderState}
    (stops : stopsChain s.token.kind = true) (fuel : Nat) (c : Chain) :
    readLinks g ctx true (fuel + 1) c s = some (c, s) := by
  have link : readNextLink g ctx true c s = some (none, s) := by
    unfold readNextLink
    rw [run_bind_of (run_current _)]
    generalize s.token.kind = kind at stops
    split
    · cases stops
    · cases stops
    · cases stops
    · cases stops
    · cases stops
    · rfl
  rw [readLinks, run_bind_of link]
  rfl

theorem stopsChain_of_stopsOperand {kind : TokenKind} (stops : stopsOperand kind = true) :
    stopsChain kind = true := by
  simp only [stopsOperand, Bool.and_eq_true] at stops
  exact stops.1.1

theorem updateMark?_of_stops {t : Token} (stops : stopsOperand t.kind = true) :
    updateMark? t = none := by
  simp only [stopsOperand, Bool.and_eq_true, bne_iff_ne, ne_eq] at stops
  simp [updateMark?, Token.isPunctuator, stops]

/-! ## Operands -/

/-- Whether a piece is read back as the operands of a tree, where operators that bind tighter than
`level` may follow. -/
def ReadsOperands (ctx : Context) (level : Nat) (piece : List Char) (tree : Expression)
    (rest : List Char) : Prop :=
  ∀ total notes gap depth, Fits total gap (piece ++ rest) 7 depth →
    ∃ p fuel, (grammar depth).limit ≤ fuel + piece.length ∧
      readOperation (grammar depth) ctx level (facing total notes (gap ++ (piece ++ rest))) =
        readOperations (grammar depth) ctx level fuel p (facing total notes rest) ∧
      PhraseOf total piece rest tree p

section

variable {ctx : Context} {piece rest : List Char} {tree : Expression} {kind : TokenKind}

theorem readAccess_of_readsChain (chain : ReadsChain ctx piece tree rest)
    (follows : Follows rest kind) (stops : stopsChain kind = true) {total : Nat} (notes : Notes)
    {gap : List Char} {depth : Nat} (fits : Fits total gap (piece ++ rest) 7 depth) :
    ∃ p, readAccess (grammar depth) ctx (facing total notes (gap ++ (piece ++ rest))) =
        some (p, facing total notes rest) ∧ PhraseOf total piece rest tree p := by
  obtain ⟨p, fuel, enough, reads, phrase⟩ := chain.reads total notes gap depth fits
  obtain ⟨fuel, rfl⟩ := exists_fuel_of_fits fits enough
  refine ⟨p, ?_, phrase⟩
  have room := fits.room
  simp only [List.length_append] at room
  rw [← (follows.token (show rest.length ≤ total by omega) notes).1] at stops
  have chained : readChain (grammar depth) ctx (facing total notes (gap ++ (piece ++ rest))) =
      some (⟨p, false⟩, facing total notes rest) := by
    rw [reads, readLinks_of_stops stops]
  have access : readAccess (grammar depth) ctx = readChain (grammar depth) ctx >>= Chain.close := by
    simp only [readAccess, readChain, bind_assoc]
  rw [access, run_bind_of chained]
  rfl

/-- An operand that starts with no operator. -/
theorem readOperand_of_starts {total : Nat} {notes : Notes} {gap text : List Char}
    (starts : StartsOperand ctx text) (blank : Blank gap) (room : (gap ++ text).length ≤ total)
    (g : Grammar) :
    readOperand g ctx (facing total notes (gap ++ text)) =
      readTrailing g ctx (facing total notes (gap ++ text)) := by
  obtain ⟨-, update, unary, awaited⟩ := starts total gap blank room
  change updateMark? (facing total notes (gap ++ text)).token = none at update
  change isUnary (facing total notes (gap ++ text)).token = false at unary
  change ((facing total notes (gap ++ text)).token.isWord "await" && (ctx.awaits ||
    showsAwaited (scanToken (facing total notes (gap ++ text)).token.stop))) = false at awaited
  unfold readOperand
  rw [run_bind_of (run_current _), run_bind_of (run_following _)]
  simp only [update, unary, awaited, Bool.false_eq_true, if_false]

/-- Operands start with one that is not the test of a private name. -/
theorem readOperation_of_operand {s s' : ReaderState} (hidden : s.token.isPrivateName = false)
    {g : Grammar} {p : Phrase} (operand : readOperand g ctx s = some (p, s')) (level : Nat) :
    readOperation g ctx level s = readOperations g ctx level g.limit p s' := by
  unfold readOperation
  rw [run_bind_of (run_current _)]
  cases kind : s.token.kind with
  | privateName name => simp [Token.isPrivateName, kind] at hidden
  | _ => exact run_bind_of operand _

/-- A chain alone. -/
theorem ReadsChain.operands (chain : ReadsChain ctx piece tree rest) (follows : Follows rest kind)
    (stops : stopsOperand kind = true) (level : Nat) : ReadsOperands ctx level piece tree rest := by
  intro total notes gap depth fits
  obtain ⟨p, reads, phrase⟩ :=
    readAccess_of_readsChain chain follows (stopsChain_of_stopsOperand stops) notes fits
  have room := fits.room
  simp only [List.length_append] at room
  rw [← (follows.token (show rest.length ≤ total by omega) notes).1] at stops
  refine ⟨p, (grammar depth).limit, Nat.le_add_right _ _, ?_, phrase⟩
  refine readOperation_of_operand (chain.starts total gap fits.blank fits.room).1 ?_ level
  rw [readOperand_of_starts chain.starts fits.blank fits.room]
  unfold readTrailing
  rw [run_bind_of reads, run_bind_of (run_current _), updateMark?_of_stops stops]
  rfl

end

/-! ### Increments and decrements -/

/-- Whether a piece is read back as a target that a value can be written to at once. -/
structure ReadsPlace (ctx : Context) (piece : List Char) (target : Target) (rest : List Char) :
    Prop where
  starts : StartsOperand ctx (piece ++ rest)
  reads : ∀ total notes gap depth, Fits total gap (piece ++ rest) 7 depth →
    ∃ p, readAccess (grammar depth) ctx (facing total notes (gap ++ (piece ++ rest))) =
        some (p, facing total notes rest) ∧
      p.place = some target ∧ p.start = .before total (piece ++ rest)

section

variable {ctx : Context} {piece rest : List Char} {target : Target} {kind : TokenKind}

/-- A name or an access by name. -/
theorem ReadsChain.place {tree : Expression} (chain : ReadsChain ctx piece tree rest)
    (isTarget : tree.asTarget? = some target) (follows : Follows rest kind)
    (stops : stopsChain kind = true) : ReadsPlace ctx piece target rest := by
  refine ⟨chain.starts, fun total notes gap depth fits => ?_⟩
  obtain ⟨p, reads, phrase⟩ := readAccess_of_readsChain chain follows stops notes fits
  exact ⟨p, reads, phrase.place target isTarget, phrase.start⟩

/-- The operators that update a target. -/
def updateMarks : List String := ["++", "--"]

theorem updateMark?_of_kind {mark : String} (known : mark ∈ updateMarks) {t : Token}
    (kind : t.kind = .punctuator mark) : updateMark? t = some mark := by
  simp only [updateMarks, List.mem_cons, List.not_mem_nil, or_false] at known
  rcases known with rfl | rfl <;> simp [updateMark?, Token.isPunctuator, kind]

theorem updateMark_closed {mark : String} (known : mark ∈ updateMarks) : mark ∈ closedMarks := by
  simp only [updateMarks, List.mem_cons, List.not_mem_nil, or_false] at known
  rcases known with rfl | rfl <;> decide

/-- An operator behind its target. -/
theorem readsOperands_postfix {mark : String} (known : mark ∈ updateMarks)
    (place : ReadsPlace ctx piece target (mark.toList ++ rest)) (level : Nat) :
    ReadsOperands ctx level (piece ++ mark.toList) (.update mark false target) rest := by
  intro total notes gap depth fits
  rw [List.append_assoc] at fits ⊢
  obtain ⟨p, reads, isPlace, start⟩ := place.reads total notes gap depth fits
  have room := fits.room
  simp only [List.length_append] at room
  have h : Shows (mark.toList ++ rest) _ _ _ _ :=
    (markAt_closed (updateMark_closed known) rest).shows Blank.nil
  have token := h.token (show (mark.toList ++ rest).length ≤ total by simp; omega) notes
  refine ⟨⟨.update mark false target, p.mentions, p.start, total - rest.length, .other, none, 0⟩,
    (grammar depth).limit, Nat.le_add_right _ _, ?_, ?_⟩
  · refine readOperation_of_operand (place.starts total gap fits.blank fits.room).1 ?_ level
    rw [readOperand_of_starts place.starts fits.blank fits.room]
    unfold readTrailing
    rw [run_bind_of reads, run_bind_of (run_current _), token, updateMark?_of_kind known rfl]
    dsimp only
    rw [if_neg (by simp), run_bind_of (h.advance (by simp; omega))]
    unfold updatePhrase
    rw [isPlace]
    rfl
  · exact .of_other rfl (by rw [start, List.append_assoc]) nofun nofun (.inl rfl)

/-- An operator before its target. -/
theorem readsOperands_prefix {mark : String} (known : mark ∈ updateMarks)
    (place : ReadsPlace ctx piece target rest) (follows : Follows rest kind)
    (stops : stopsOperand kind = true) (level : Nat) :
    ReadsOperands ctx level (mark.toList ++ piece) (.update mark true target) rest := by
  intro total notes gap depth fits
  rw [List.append_assoc] at fits ⊢
  have room := fits.room
  have fuel := fits.fuel
  simp only [List.length_append] at room fuel
  have h : Shows (gap ++ (mark.toList ++ (piece ++ rest))) _ _ _ _ :=
    (markAt_closed (updateMark_closed known) (piece ++ rest)).shows fits.blank
  have token := h.token fits.room notes
  obtain ⟨depth, rfl⟩ : ∃ d, depth = d + 1 := ⟨depth - 1, by omega⟩
  have length : mark.toList.length = 2 := by
    simp only [updateMarks, List.mem_cons, List.not_mem_nil, or_false] at known
    rcases known with rfl | rfl <;> rfl
  have inner : Fits total [] (piece ++ rest) 7 depth := by
    refine fits.shorter Blank.nil ?_ ?_ <;>
      simp only [List.length_append, List.length_nil] <;> omega
  obtain ⟨p, reads, isPlace, start⟩ := place.reads total notes [] depth inner
  rw [← (follows.token (show rest.length ≤ total by omega) notes).1] at stops
  -- what follows the target is no operator behind it
  have operand : (grammar (depth + 1)).operand ctx (facing total notes (piece ++ rest)) =
      some (p, facing total notes rest) := by
    rw [grammar_operand, ← List.nil_append (piece ++ rest),
      readOperand_of_starts place.starts inner.blank inner.room]
    unfold readTrailing
    rw [run_bind_of reads, run_bind_of (run_current _), updateMark?_of_stops stops]
    rfl
  refine ⟨⟨.update mark true target, p.mentions, .before total (mark.toList ++ (piece ++ rest)),
    total - rest.length, .other, none, 0⟩, (grammar (depth + 1)).limit, Nat.le_add_right _ _,
    ?_, ?_⟩
  · refine readOperation_of_operand (by rw [token]; rfl) ?_ level
    unfold readOperand
    rw [run_bind_of (run_current _), run_bind_of (run_following _), token,
      updateMark?_of_kind known rfl]
    simp only
    rw [run_bind_of (h.advance fits.room), run_bind_of operand]
    unfold updatePhrase
    rw [isPlace]
    rfl
  · exact .of_other rfl (by rw [List.append_assoc]) nofun nofun (.inl rfl)

end

/-! ## Operations -/

/-- The operators between operands that are marks. -/
def operatorMarks : List String :=
  ["??", "||", "&&", "|", "^", "&", "==", "!=", "===", "!==", "<", ">", "<=", ">=", "<<", ">>",
   ">>>", "+", "-", "*", "/", "%", "**"]

/-- The operators between operands that are words. -/
def operatorWords : List String := ["in", "instanceof"]

/-- How tight an operator binds. -/
def operatorLevel (operator : String) : Nat :=
  if operatorWords.contains operator then 8 else markLevel operator

/-- Whether a token is an operator between operands. -/
structure OperatorToken (ctx : Context) (operator : String) (kind : TokenKind) : Prop where
  stops : stopsOperand kind = true
  plain : ∀ t : Token, t.kind = kind → t.isEscaped = false
  operator : ∀ t : Token, t.kind = kind → operator? ctx t = some (operator, operatorLevel operator)

theorem operatorMarks_known : ∀ mark ∈ operatorMarks, mark ∈ punctuators ∧ markLevel mark ≠ 0 ∧
    operatorWords.contains mark = false ∧ stopsOperand (.punctuator mark) = true := by
  decide +kernel

/-- The token of an operator between blanks. -/
theorem shows_operator {ctx : Context} (allowsIn : ctx.allowsIn = true) {operator : String}
    (known : operator ∈ operatorMarks ++ operatorWords) (rest : List Char) :
    ∃ kind, Shows (' ' :: (operator.toList ++ ' ' :: rest)) kind (operator.toList ++ ' ' :: rest)
      (' ' :: rest) false ∧ OperatorToken ctx operator kind := by
  -- an operator is a mark, or one of the words `in` and `instanceof`
  rcases List.mem_append.1 known with known | known
  · obtain ⟨mark, level, noWord, stops⟩ := operatorMarks_known operator known
    refine ⟨.punctuator operator, (markAt_blank mark rest).shows Blank.space, stops, ?_, ?_⟩
    · intro t kind
      rw [Token.isEscaped, kind]
    · intro t kind
      rw [operatorLevel, noWord]
      simp [operator?, kind, level]
  · have spelled : isSpelled operator = true := by
      simp only [operatorWords, List.mem_cons, List.not_mem_nil, or_false] at known
      rcases known with rfl | rfl <;> decide
    refine ⟨.word operator false, shows_word spelled rfl Blank.space, rfl, ?_, ?_⟩
    · intro t kind
      rw [Token.isEscaped, kind]
    · intro t kind
      simp only [operatorWords, List.mem_cons, List.not_mem_nil, or_false] at known
      rcases known with rfl | rfl <;>
      simp [operator?, kind, operatorLevel, operatorWords, allowsIn]

/-- Whether the operators of some level end before a text. -/
def StopsOperation (ctx : Context) (level : Nat) (rest : List Char) : Prop :=
  ∃ kind, Follows rest kind ∧ stopsOperand kind = true ∧ ∀ t : Token, t.kind = kind →
    t.isWord "as" = false ∧ t.isWord "satisfies" = false ∧
      ∀ operator, operator? ctx t = some operator → bindsWithin operator level = false

theorem readOperations_of_stops {g : Grammar} {ctx : Context} {level total : Nat} {notes : Notes}
    {rest : List Char} (stops : StopsOperation ctx level rest) (room : rest.length ≤ total)
    (fuel : Nat) (p : Phrase) :
    readOperations g ctx level (fuel + 1) p (facing total notes rest) =
      some (p, facing total notes rest) := by
  obtain ⟨kind, follows, -, stops⟩ := stops
  obtain ⟨isAs, isSatisfies, stops⟩ := stops _ (follows.token room notes).1
  rw [readOperations, run_bind_of (run_current _)]
  cases known : operator? ctx (facing total notes rest).token with
  | none =>
    dsimp only
    have plain : isTypeWord (facing total notes rest).token = false := by
      simp [isTypeWord, isAs, isSatisfies]
    simp only [plain, Bool.false_and, Bool.not_false, run_bind, run_require, if_true,
      Option.bind_some, run_pure]
  | some operator =>
    dsimp only
    rw [if_neg (by rw [stops operator known]; decide), run_pure]

/-- Whether a piece is read back as a tree where operators bind tighter than `level`. -/
def ReadsOperation (ctx : Context) (level : Nat) (piece : List Char) (tree : Expression)
    (rest : List Char) : Prop :=
  ∀ total notes gap depth, Fits total gap (piece ++ rest) 8 depth →
    ∃ p, (grammar depth).operation ctx level (facing total notes (gap ++ (piece ++ rest))) =
        some (p, facing total notes rest) ∧
      PhraseOf total piece rest tree p

section

variable {ctx : Context} {piece rest : List Char} {tree : Expression} {level : Nat}

/-- Operands end where no operator follows that binds tighter. -/
theorem ReadsOperands.readOperation (operands : ReadsOperands ctx level piece tree rest)
    (stops : StopsOperation ctx level rest) {total : Nat} (notes : Notes) {gap : List Char}
    {depth : Nat} (fits : Fits total gap (piece ++ rest) 7 depth) :
    ∃ p, Script.readOperation (grammar depth) ctx level
        (facing total notes (gap ++ (piece ++ rest))) = some (p, facing total notes rest) ∧
      PhraseOf total piece rest tree p := by
  obtain ⟨p, fuel, enough, reads, phrase⟩ := operands total notes gap depth fits
  obtain ⟨fuel, rfl⟩ := exists_fuel_of_fits fits enough
  have room := fits.room
  simp only [List.length_append] at room
  exact ⟨p, by rw [reads, readOperations_of_stops stops (by omega)], phrase⟩

theorem ReadsOperands.operation (operands : ReadsOperands ctx level piece tree rest)
    (stops : StopsOperation ctx level rest) : ReadsOperation ctx level piece tree rest := by
  intro total notes gap depth fits
  have fuel := fits.fuel
  obtain ⟨depth, rfl⟩ : ∃ d, depth = d + 1 := ⟨depth - 1, by omega⟩
  rw [grammar_operation]
  exact operands.readOperation stops notes ⟨fits.blank, fits.room, by omega⟩

/-- Whether two operands go together with an operator. -/
def OperandsFit (operator : String) (left : List Char) (leftTree : Expression)
    (right : List Char) (rightTree : Expression) : Prop :=
  operator = "??" → (leftTree.isLogical = true → left.head? = some '(') ∧
    (rightTree.isLogical = true → right.head? = some '(')

theorem not_mixesCoalescing {total : Nat} {p : Phrase} (phrase : PhraseOf total piece rest tree p)
    (opens : tree.isLogical = true → piece.head? = some '(') : mixesCoalescing p = false := by
  by_cases logical : p.form = .logical
  · have head := opens (phrase.logical logical)
    cases piece with
    | nil => cases head
    | cons c piece =>
      simp only [List.head?_cons, Option.some.injEq] at head
      simp [mixesCoalescing, Phrase.startsParenthesized, phrase.start, Cursor.before, head]
  · simp [mixesCoalescing, logical]

variable {operator : String} {piece' : List Char} {tree' : Expression}

theorem operandsFit_of_phrases {total : Nat} {p q : Phrase}
    (left : PhraseOf total piece (' ' :: (operator.toList ++ ' ' :: (piece' ++ rest))) tree p)
    (right : PhraseOf total piece' rest tree' q)
    (room : (' ' :: (operator.toList ++ ' ' :: (piece' ++ rest))).length ≤ total)
    (fit : OperandsFit operator piece tree piece' tree') : operandsFit operator p q = true := by
  unfold operandsFit
  by_cases coalescing : operator = "??"
  · obtain ⟨opens, opens'⟩ := fit coalescing
    simp [coalescing, not_mixesCoalescing left opens, not_mixesCoalescing right opens']
  · by_cases power : operator = "**"
    · subst power
      have mark : "**" ∈ punctuators := by decide
      have token := (markAt_blank mark (piece' ++ rest)).shows Blank.space total room
      have unary : p.form ≠ .unary := by
        intro unary
        have other := left.unary unary
        rw [show (' ' :: (String.toList "**" ++ ' ' :: (piece' ++ rest))) =
          [' '] ++ (String.toList "**" ++ ' ' :: (piece' ++ rest)) from rfl, token] at other
        cases other
      simp [unary]
    · simp [coalescing, power]

/-- Two operands with an operator between them. -/
theorem readsOperands_binary (allowsIn : ctx.allowsIn = true)
    (known : operator ∈ operatorMarks ++ operatorWords)
    (binds : bindsWithin (operator, operatorLevel operator) level = true)
    (left : ReadsOperands ctx level piece tree
      (' ' :: (operator.toList ++ ' ' :: (piece' ++ rest))))
    (right : ReadsOperation ctx (operatorLevel operator) piece' tree' rest)
    (fit : OperandsFit operator piece tree piece' tree') :
    ReadsOperands ctx level (piece ++ ' ' :: (operator.toList ++ ' ' :: piece'))
      (.binary tree operator tree') rest := by
  have text : piece ++ ' ' :: (operator.toList ++ ' ' :: piece') ++ rest =
      piece ++ ' ' :: (operator.toList ++ ' ' :: (piece' ++ rest)) := by
    simp
  intro total notes gap depth fits
  rw [text] at fits ⊢
  obtain ⟨p, fuel, enough, reads, phrase⟩ := left total notes gap depth fits
  obtain ⟨fuel, rfl⟩ := exists_fuel_of_fits fits enough
  have room := fits.room
  simp only [List.length_append, List.length_cons] at room
  obtain ⟨kind, h, token⟩ := shows_operator allowsIn known (piece' ++ rest)
  have room' : (' ' :: (operator.toList ++ ' ' :: (piece' ++ rest))).length ≤ total := by
    simp
    omega
  obtain ⟨q, reads', phrase'⟩ := right total notes [' '] depth (by
    refine fits.shorter Blank.space ?_ ?_ <;> simp <;> omega)
  refine ⟨⟨.binary p.tree operator q.tree, p.mentions ++ q.mentions, p.start, total - rest.length,
    operationForm operator, none, 0⟩, fuel, ?_, ?_, ?_⟩
  · simp only [List.length_append, List.length_cons]
    omega
  · rw [reads, readOperations, run_bind_of (run_current _), h.token room',
      token.operator _ rfl]
    dsimp only
    rw [if_pos binds, run_bind_of (h.takeKeyword room' (token.plain _ rfl)),
      show (' ' :: (piece' ++ rest)) = [' '] ++ (piece' ++ rest) from rfl, run_bind_of reads',
      run_bind]
    unfold operationPhrase
    rw [operandsFit_of_phrases phrase phrase' room' fit]
    rfl
  · refine ⟨by rw [phrase.same, phrase'.same], by rw [phrase.start, text], nofun, nofun, ?_, ?_, ?_⟩
    · simp only [operationForm, Expression.isLogical]
      split
      · exact fun _ => by assumption
      · nofun
    · simp only [operationForm]
      split <;> nofun
    · simp only [operationForm]
      split <;> nofun

end

end ReactiveMarkup.Script
