import ReactiveMarkup.Proofs.ReadBackOperator

/-!
# Reading back whole expressions

Assignments, sequences and arguments. A whole expression ends where a semicolon, a closing
parenthesis, a comma or a colon follows. It is read as an arrow first if it could start one, so
what leads it must not look like the parameters of an arrow.
-/

namespace ReactiveMarkup.Script

open Reader

/-! ## What ends an expression -/

/-- The marks that follow a whole expression. -/
def wholeEnds : List String := [";", ")", ",", ":"]

/-- Whether a text starts with a mark that ends a whole expression. -/
def endsWhole : List Char → Bool
  | c :: _ => [';', ')', ',', ':'].contains c
  | [] => false

theorem follows_of_endsWhole {rest : List Char} (ends : endsWhole rest = true) :
    ∃ mark ∈ wholeEnds, Follows rest (.punctuator mark) := by
  cases rest with
  | nil => cases ends
  | cons c rest =>
    simp only [endsWhole, List.contains_eq_mem, List.mem_cons, List.not_mem_nil, or_false,
      decide_eq_true_eq] at ends
    rcases ends with rfl | rfl | rfl | rfl
    · exact ⟨";", by decide, _, _, shows_next ";" ';' (by decide) (by decide) _⟩
    · exact ⟨")", by decide, _, _, shows_next ")" ')' (by decide) (by decide) _⟩
    · exact ⟨",", by decide, _, _, shows_next "," ',' (by decide) (by decide) _⟩
    · exact ⟨":", by decide, _, _, shows_next ":" ':' (by decide) (by decide) _⟩

theorem wholeEnds_known : ∀ mark ∈ wholeEnds, markLevel mark = 0 ∧
    stopsOperand (.punctuator mark) = true ∧ mark ≠ "?" ∧ assignmentMarks.contains mark = false ∧
    mark ≠ "=>" := by
  decide +kernel

theorem stopsOperation_of_endsWhole {rest : List Char} (ends : endsWhole rest = true)
    (ctx : Context) (level : Nat) : StopsOperation ctx level rest := by
  obtain ⟨mark, known, follows⟩ := follows_of_endsWhole ends
  obtain ⟨loose, stops, -, -, -⟩ := wholeEnds_known mark known
  refine ⟨_, follows, stops, fun t kind => ⟨Token.isWord_of_punctuator kind _,
    Token.isWord_of_punctuator kind _, fun operator found => ?_⟩⟩
  simp [operator?, kind, loose] at found

theorem readTail_of_endsWhole {rest : List Char} (ends : endsWhole rest = true) {total : Nat}
    (room : rest.length ≤ total) (notes : Notes) (g : Grammar) (ctx : Context) (p : Phrase) :
    readTail g ctx p (facing total notes rest) = some (p, facing total notes rest) := by
  obtain ⟨mark, known, follows⟩ := follows_of_endsWhole ends
  obtain ⟨-, -, notTest, notAssigned, notArrow⟩ := wholeEnds_known mark known
  have kind := (follows.token room notes).1
  have test : (facing total notes rest).token.isPunctuator "?" = false := by
    simpa [Token.isPunctuator, kind] using notTest
  have arrow : (facing total notes rest).token.isPunctuator "=>" = false := by
    simpa [Token.isPunctuator, kind] using notArrow
  have assigned : assignmentMark? (facing total notes rest).token = none := by
    rw [assignmentMark?, kind]
    dsimp only
    rw [notAssigned]
    rfl
  unfold readTail
  rw [run_bind_of (run_current _)]
  simp only [test, arrow, Bool.false_eq_true, if_false, assigned]
  cases p.form <;> rfl

/-! ## What opens no expression -/

/-- Where no innermost expression starts, and no operator before one, there is no expression. -/
theorem readAssignment_of_readPrimary {g : Grammar} {ctx : Context} {s : ReaderState}
    (noWord : ∀ word ∈ ["yield", "async", "await", "super", "import", "new"],
      s.token.isWord word = false)
    (noMark : ∀ mark ∈ ["(", "++", "--"], s.token.isPunctuator mark = false)
    (unary : isUnary s.token = false) (hidden : s.token.isPrivateName = false)
    (primary : readPrimary g ctx s = none) : readAssignment g ctx s = none := by
  have start : readChainStart g ctx s = none := by
    unfold readChainStart
    rw [run_bind_of (run_current _), noWord "super" (by simp), noWord "import" (by simp),
      noWord "new" (by simp), if_neg (by decide), if_neg (by decide), if_neg (by decide), primary]
  have operand : readOperand g ctx s = none := by
    unfold readOperand
    rw [run_bind_of (run_current _), run_bind_of (run_following _)]
    simp only [updateMark?, noMark "++" (by simp), noMark "--" (by simp), unary,
      noWord "await" (by simp), Bool.false_and, Bool.false_eq_true, if_false]
    simp only [readTrailing, readAccess, run_bind, start, Option.bind_none]
  have operation : readOperation g ctx 0 s = none := by
    unfold readOperation
    rw [run_bind_of (run_current _)]
    cases kind : s.token.kind with
    | privateName text => simp [Token.isPrivateName, kind] at hidden
    | _ => simp only [run_bind, operand, Option.bind_none]
  have arrow : readLeadingArrow? g ctx s = some (none, s) := by
    unfold readLeadingArrow?
    rw [run_bind_of (run_current _), run_bind_of (run_following _)]
    simp only [noMark "(" (by simp), noWord "async" (by simp), Bool.false_and, Bool.false_eq_true,
      if_false, run_pure]
  unfold readAssignment
  rw [run_bind_of (run_current _), run_bind_of (run_following _)]
  simp only [noWord "yield" (by simp), Bool.false_and, Bool.false_eq_true, if_false]
  rw [run_bind_of arrow]
  simp only [run_bind, operation, Option.bind_none]

/-- Whether no expression starts with a token. -/
def opensNothing : TokenKind → Bool
  | .punctuator mark => [")", "]", "\x7d", ",", ";", ":", "..."].contains mark
  | .invalid | .ended => true
  | .word text _ => text == "else"
  | _ => false

theorem readPrimary_of_opensNothing {s : ReaderState} (closed : opensNothing s.token.kind = true)
    (g : Grammar) (ctx : Context) : readPrimary g ctx s = none := by
  unfold readPrimary
  rw [run_bind_of (run_current _)]
  cases kind : s.token.kind with
  | punctuator mark =>
    rw [kind] at closed
    simp only [opensNothing, List.contains_eq_mem, List.mem_cons, List.not_mem_nil, or_false,
      decide_eq_true_eq] at closed
    rcases closed with rfl | rfl | rfl | rfl | rfl | rfl | rfl <;> rfl
  | word text escaped =>
    obtain rfl : text = "else" := by simpa [opensNothing, kind] using closed
    have reserved : isNameToken ctx s.token = false := by
      rw [isNameToken, kind]
      rfl
    dsimp only
    unfold readWord takeName
    rw [run_bind_of (run_current _), run_bind_of (run_following _), if_neg (by decide),
      if_neg (by decide), if_neg (by decide), if_neg (by simp), bind_assoc,
      run_bind_of (run_current _)]
    simp only [kind, reserved, run_bind, run_require, Bool.false_eq_true, if_false,
      Option.bind_none]
  | invalid => rfl
  | ended => rfl
  | _ => simp [kind, opensNothing] at closed

theorem readAssignment_of_opensNothing {s : ReaderState}
    (closed : opensNothing s.token.kind = true) (g : Grammar) (ctx : Context) :
    readAssignment g ctx s = none := by
  have noWord : ∀ word, word ≠ "else" → s.token.isWord word = false := by
    intro word other
    cases kind : s.token.kind with
    | word text escaped =>
      obtain rfl : text = "else" := by simpa [opensNothing, kind] using closed
      simpa [Token.isWord, kind] using other.symm
    | _ => simp [Token.isWord, kind]
  have noMark : ∀ mark, opensNothing (.punctuator mark) = false →
      s.token.isPunctuator mark = false := by
    intro mark opens
    refine beq_eq_false_iff_ne.2 fun kind => ?_
    rw [kind, opens] at closed
    cases closed
  refine readAssignment_of_readPrimary ?_ ?_ ?_ ?_ (readPrimary_of_opensNothing closed g ctx)
  · intro word mem
    refine noWord word ?_
    rintro rfl
    simp at mem
  · intro mark mem
    simp only [List.mem_cons, List.not_mem_nil, or_false] at mem
    rcases mem with rfl | rfl | rfl <;> exact noMark _ (by decide)
  · cases kind : s.token.kind with
    | punctuator mark =>
      rw [kind] at closed
      simp only [opensNothing, List.contains_eq_mem, List.mem_cons, List.not_mem_nil, or_false,
        decide_eq_true_eq] at closed
      rcases closed with rfl | rfl | rfl | rfl | rfl | rfl | rfl <;>
        simp [isUnary, kind, unaryMarks]
    | word text escaped =>
      obtain rfl : text = "else" := by simpa [opensNothing, kind] using closed
      simp [isUnary, kind, unaryWords]
    | _ => simp [isUnary, kind]
  · cases kind : s.token.kind with
    | privateName text => simp [kind, opensNothing] at closed
    | _ => simp [Token.isPrivateName, kind]

/-! ## What leads an expression -/

/-- Whether a text leads a whole expression that is neither an arrow nor a `yield`. -/
def LeadsWhole (ctx : Context) (text : List Char) : Prop :=
  ∀ total notes gap depth, Fits total gap text 7 depth →
    let s := facing total notes (gap ++ text)
    (s.token.isWord "yield" && (ctx.yields || showsOperand (scanToken s.token.stop))) = false ∧
      readLeadingArrow? (grammar depth) ctx s = some (none, s)

/-- What starts with a token that starts neither an arrow nor a `yield`. -/
theorem leadsWhole_of_opens {ctx : Context} {text rest : List Char} {kind : TokenKind}
    (opens : Opens text kind rest) (noMark : kind ≠ .punctuator "(")
    (noWord : ∀ t : Token, t.kind = kind → t.isWord "async" = false ∧ t.isWord "yield" = false) :
    LeadsWhole ctx text := by
  intro total notes gap depth fits
  have token := (opens gap fits.blank).token fits.room notes
  obtain ⟨isAsync, isYield⟩ := noWord _ (congrArg Token.kind token)
  have noMark : (facing total notes (gap ++ text)).token.isPunctuator "(" = false := by
    rw [token]
    exact beq_eq_false_iff_ne.2 noMark
  refine ⟨by rw [isYield, Bool.false_and], ?_⟩
  unfold readLeadingArrow?
  rw [run_bind_of (run_current _), run_bind_of (run_following _)]
  simp only [noMark, isAsync, Bool.false_and, Bool.false_eq_true, if_false, run_pure]

theorem leadsWhole_name {ctx : Context} {name : String} {rest : List Char}
    (plain : isPlainName name = true) (ends : endsName rest = true) :
    LeadsWhole ctx (name.toList ++ rest) := by
  refine leadsWhole_of_opens (opens_word (isPlainName_spelled plain) ends) nofun fun t kind => ?_
  simp only [Token.isWord, kind]
  exact ⟨isPlainName_ne_double plain (by decide), isPlainName_ne_double plain (by decide)⟩

/-! ## Whole expressions -/

/-- Whether a piece is read back as a tree where an expression without commas stands. -/
def ReadsWhole (ctx : Context) (piece : List Char) (tree : Expression) (rest : List Char) : Prop :=
  ∀ total notes gap depth, Fits total gap (piece ++ rest) 8 depth →
    ∃ p, (grammar depth).assignment ctx (facing total notes (gap ++ (piece ++ rest))) =
        some (p, facing total notes rest) ∧
      PhraseOf total piece rest tree p

/-- A grammar that has the depth for a text has a deeper one inside. -/
theorem Fits.exists_depth {total : Nat} {gap text : List Char} {slack depth : Nat}
    (fits : Fits total gap text (slack + 1) depth) :
    ∃ inner, depth = inner + 1 ∧ Fits total gap text slack inner := by
  have fuel := fits.fuel
  exact ⟨depth - 1, by omega, fits.blank, fits.room, by omega⟩

theorem readAssignment_of_leads {ctx : Context} {text : List Char} (leads : LeadsWhole ctx text)
    {total : Nat} (notes : Notes) {gap : List Char} {depth : Nat}
    (fits : Fits total gap text 7 depth) :
    readAssignment (grammar depth) ctx (facing total notes (gap ++ text)) =
      (readOperation (grammar depth) ctx 0 >>= readTail (grammar depth) ctx)
        (facing total notes (gap ++ text)) := by
  obtain ⟨noYield, noArrow⟩ := leads total notes gap depth fits
  unfold readAssignment
  rw [run_bind_of (run_current _), run_bind_of (run_following _)]
  rw [if_neg (by rw [noYield]; decide), run_bind_of noArrow]

section

variable {ctx : Context} {piece rest : List Char} {tree : Expression}

/-- Operands alone. -/
theorem ReadsOperands.whole (operands : ReadsOperands ctx 0 piece tree rest)
    (leads : LeadsWhole ctx (piece ++ rest)) (ends : endsWhole rest = true) :
    ReadsWhole ctx piece tree rest := by
  intro total notes gap depth enough
  obtain ⟨depth, rfl, fits⟩ := enough.exists_depth
  obtain ⟨p, reads, phrase⟩ :=
    operands.readOperation (stopsOperation_of_endsWhole ends ctx 0) notes fits
  have room := fits.room
  simp only [List.length_append] at room
  refine ⟨p, ?_, phrase⟩
  rw [grammar_assignment, readAssignment_of_leads leads notes fits, run_bind_of reads,
    readTail_of_endsWhole ends (by omega)]

/-! ### Assignments -/

/-- Whether a piece is read back as the target of an assignment. -/
def ReadsTarget (ctx : Context) (mark : String) (piece : List Char) (target : Target)
    (rest : List Char) : Prop :=
  ∀ total notes gap depth, Fits total gap (piece ++ rest) 7 depth →
    ∃ p s, readOperation (grammar depth) ctx 0 (facing total notes (gap ++ (piece ++ rest))) =
        some (p, s) ∧ s.token = (facing total notes rest).token ∧
      assignedTarget mark p s = some (target, facing total notes rest) ∧
      p.start = .before total (piece ++ rest)

theorem assignmentMarks_known : ∀ mark ∈ assignmentMarks, mark ∈ punctuators ∧ mark ≠ "?" ∧
    markLevel mark = 0 ∧ stopsOperand (.punctuator mark) = true := by
  decide +kernel

theorem stopsOperation_of_assignment {mark : String} (known : mark ∈ assignmentMarks)
    (ctx : Context) (level : Nat) :
    StopsOperation ctx level (' ' :: (mark.toList ++ ' ' :: rest)) := by
  obtain ⟨punctuator, -, loose, stops⟩ := assignmentMarks_known mark known
  refine ⟨_, ⟨_, _, (markAt_blank punctuator rest).shows Blank.space⟩, stops, fun t kind =>
    ⟨Token.isWord_of_punctuator kind _, Token.isWord_of_punctuator kind _,
      fun operator found => ?_⟩⟩
  simp [operator?, kind, loose] at found

/-- A name or an access by name before the mark of an assignment. -/
theorem ReadsOperands.target {mark : String} (known : mark ∈ assignmentMarks) {target : Target}
    (operands : ReadsOperands ctx 0 piece tree (' ' :: (mark.toList ++ ' ' :: rest)))
    (isTarget : tree.asTarget? = some target) :
    ReadsTarget ctx mark piece target (' ' :: (mark.toList ++ ' ' :: rest)) := by
  intro total notes gap depth fits
  obtain ⟨p, reads, phrase⟩ :=
    operands.readOperation (stopsOperation_of_assignment known ctx 0) notes fits
  refine ⟨p, _, reads, rfl, ?_, phrase.start⟩
  simp only [assignedTarget, takeTarget, phrase.place target isTarget]
  split <;> rfl

/-- An assignment. -/
theorem readsWhole_assignment {mark : String} (known : mark ∈ assignmentMarks) {target : Target}
    {piece' : List Char}
    (left : ReadsTarget ctx mark piece target (' ' :: (mark.toList ++ ' ' :: (piece' ++ rest))))
    (leads : LeadsWhole ctx (piece ++ ' ' :: (mark.toList ++ ' ' :: (piece' ++ rest))))
    (right : ReadsWhole ctx piece' tree rest) :
    ReadsWhole ctx (piece ++ ' ' :: (mark.toList ++ ' ' :: piece'))
      (.assignment mark target tree) rest := by
  have text : piece ++ ' ' :: (mark.toList ++ ' ' :: piece') ++ rest =
      piece ++ ' ' :: (mark.toList ++ ' ' :: (piece' ++ rest)) := by
    simp
  intro total notes gap depth enough
  rw [text] at enough ⊢
  obtain ⟨depth, rfl, fits⟩ := enough.exists_depth
  obtain ⟨p, s, reads, token, assigned, start⟩ := left total notes gap depth fits
  obtain ⟨punctuator, notTest, -, -⟩ := assignmentMarks_known mark known
  have h : Shows (' ' :: (mark.toList ++ ' ' :: (piece' ++ rest))) _ _ _ _ :=
    (markAt_blank punctuator (piece' ++ rest)).shows Blank.space
  have room := fits.room
  simp only [List.length_append, List.length_cons] at room
  have room' : (' ' :: (mark.toList ++ ' ' :: (piece' ++ rest))).length ≤ total := by
    simp
    omega
  obtain ⟨q, reads', phrase⟩ := right total notes [' '] depth (by
    refine fits.shorter Blank.space ?_ ?_ <;> simp <;> omega)
  refine ⟨⟨.assignment mark target q.tree, p.mentions ++ q.mentions, p.start, total - rest.length,
    if mark == "=" then .defaulted else .other, none, 0⟩, ?_, ?_⟩
  -- the left side is read up to the mark, which makes it a target
  · have isMark : assignmentMark? s.token = some mark := by
      rw [token, h.token room']
      simp [assignmentMark?, known]
    have test : s.token.isPunctuator "?" = false := by
      rw [token, h.token room']
      simpa [Token.isPunctuator] using notTest
    rw [grammar_assignment, readAssignment_of_leads leads notes fits, run_bind_of reads]
    unfold readTail
    rw [run_bind_of (run_current _)]
    simp only [test, Bool.false_eq_true, if_false, isMark]
    unfold readAssigned
    rw [run_bind_of assigned, run_bind_of (h.advance room'),
      show ' ' :: (piece' ++ rest) = [' '] ++ (piece' ++ rest) from rfl, run_bind_of reads']
    rfl
  · refine .of_other (by rw [phrase.same]) (by rw [start, text]) (fun _ eq => by cases eq)
      (fun _ eq => by cases eq) ?_
    dsimp only
    split
    · exact .inr rfl
    · exact .inl rfl

end

/-! ## Sequences -/

/-- Whether a text starts with a mark that ends an expression with commas. -/
def endsSequence : List Char → Bool
  | c :: _ => [';', ')', ':'].contains c
  | [] => false

theorem endsWhole_of_endsSequence {rest : List Char} (ends : endsSequence rest = true) :
    endsWhole rest = true := by
  cases rest with
  | nil => cases ends
  | cons c rest =>
    simp only [endsSequence, endsWhole, List.contains_eq_mem, List.mem_cons, List.not_mem_nil,
      or_false, decide_eq_true_eq] at ends ⊢
    rcases ends with ends | ends | ends <;> simp [ends]

theorem not_comma_of_endsSequence {rest : List Char} (ends : endsSequence rest = true) {total : Nat}
    (room : rest.length ≤ total) (notes : Notes) :
    (facing total notes rest).token.isPunctuator "," = false := by
  cases rest with
  | nil => cases ends
  | cons c rest =>
    simp only [endsSequence, List.contains_eq_mem, List.mem_cons, List.not_mem_nil, or_false,
      decide_eq_true_eq] at ends
    rcases ends with rfl | rfl | rfl
    · rw [(shows_next ";" ';' (by decide) (by decide) _).token room]
      rfl
    · rw [(shows_next ")" ')' (by decide) (by decide) _).token room]
      rfl
    · rw [(shows_next ":" ':' (by decide) (by decide) _).token room]
      rfl

/-- Whether some pieces, each behind a comma, are read back as trees. -/
def ReadsTails (ctx : Context) (tails : List Char) (trees : List Expression) (rest : List Char) :
    Prop :=
  ∀ total notes depth fuel, Fits total [] (tails ++ rest) 7 depth → tails.length + 1 ≤ fuel →
    ∃ items, collect (sequenceItem (grammar depth) ctx) fuel (facing total notes (tails ++ rest)) =
        some (items, facing total notes rest) ∧
      items.map Phrase.tree = trees

section

variable {ctx : Context} {piece rest : List Char} {tree : Expression}

theorem readsTails_nil (ends : endsSequence rest = true) : ReadsTails ctx [] [] rest := by
  intro total notes depth fuel fits enough
  obtain ⟨fuel, rfl⟩ : ∃ f, fuel = f + 1 := ⟨fuel - 1, by omega⟩
  have item : sequenceItem (grammar depth) ctx (facing total notes rest) =
      some (none, facing total notes rest) := by
    unfold sequenceItem
    rw [run_bind_of (run_accept_of_not (not_comma_of_endsSequence ends fits.room notes))]
    rfl
  refine ⟨[], ?_, rfl⟩
  rw [List.nil_append, collect, run_bind_of item]
  rfl

theorem readsTails_cons {tails : List Char} {trees : List Expression}
    (first : ReadsWhole ctx piece tree (tails ++ rest)) (more : ReadsTails ctx tails trees rest) :
    ReadsTails ctx (',' :: ' ' :: (piece ++ tails)) (tree :: trees) rest := by
  have text : ',' :: ' ' :: (piece ++ tails) ++ rest =
      ',' :: ([' '] ++ (piece ++ (tails ++ rest))) := by
    simp
  intro total notes depth fuel fits enough
  rw [text] at fits ⊢
  have room := fits.room
  simp only [List.length_append, List.length_cons, List.length_nil] at room enough
  obtain ⟨fuel, rfl⟩ : ∃ f, fuel = f + 1 := ⟨fuel - 1, by omega⟩
  obtain ⟨p, reads, phrase⟩ := first total notes [' '] depth (by
    refine fits.shorter Blank.space ?_ ?_ <;>
      simp only [List.length_append, List.length_cons, List.length_nil] <;> omega)
  obtain ⟨items, collected, rfl⟩ := more total notes depth fuel (by
    refine fits.shorter Blank.nil ?_ ?_ <;>
      simp only [List.length_append, List.length_cons, List.length_nil] <;> omega) (by omega)
  have comma : Shows (',' :: ([' '] ++ (piece ++ (tails ++ rest)))) _ _ _ _ :=
    shows_next "," ',' (by decide) (by decide) _
  have item : sequenceItem (grammar depth) ctx
      (facing total notes (',' :: ([' '] ++ (piece ++ (tails ++ rest))))) =
      some (some p, facing total notes (tails ++ rest)) := by
    unfold sequenceItem
    rw [run_bind_of (comma.accept (by simp; omega) rfl), if_pos rfl, run_bind_of reads]
    rfl
  refine ⟨p :: items, ?_, by simp [phrase.same]⟩
  rw [collect, run_bind_of item]
  dsimp only
  rw [run_bind_of collected]
  rfl

/-- An expression without commas. -/
theorem ReadsWhole.sequence (whole : ReadsWhole ctx piece tree rest)
    (ends : endsSequence rest = true) : ReadsSequence ctx piece tree rest := by
  intro total notes gap depth fits
  obtain ⟨p, reads, phrase⟩ := whole total notes gap depth fits
  refine ⟨p, ?_, phrase⟩
  have room := fits.room
  simp only [List.length_append] at room
  unfold Grammar.expression
  rw [run_bind_of reads, run_bind_of (run_at? _ _),
    not_comma_of_endsSequence ends (by omega)]
  rfl

/-- Expressions with commas between them. -/
theorem readsSequence_of_tails {tails : List Char} {trees : List Expression}
    (first : ReadsWhole ctx piece tree (tails ++ rest)) (more : ReadsTails ctx tails trees rest)
    (several : tails.head? = some ',') :
    ReadsSequence ctx (piece ++ tails) (.sequence (tree :: trees)) rest := by
  intro total notes gap depth fits
  rw [List.append_assoc] at fits ⊢
  have room := fits.room
  have fuel := fits.fuel
  simp only [List.length_append] at room fuel
  obtain ⟨p, reads, phrase⟩ := first total notes gap depth fits
  obtain ⟨items, collected, rfl⟩ := more total notes depth (grammar depth).limit (by
    refine fits.shorter Blank.nil ?_ ?_ <;> simp <;> omega) (by
    rw [grammar_limit]
    omega)
  -- it is a sequence, and not its first expression alone, since a comma follows
  have comma : (facing total notes (tails ++ rest)).token.isPunctuator "," = true := by
    cases tails with
    | nil => cases several
    | cons c tails =>
      simp only [List.head?_cons, Option.some.injEq] at several
      subst several
      have h : Shows (',' :: (tails ++ rest)) _ _ _ _ :=
        shows_next "," ',' (by decide) (by decide) _
      simp only [List.length_cons] at room
      rw [List.cons_append, h.token (by simp; omega)]
      rfl
  refine ⟨⟨.sequence (p.tree :: items.map Phrase.tree),
    p.mentions ++ items.flatMap Phrase.mentions, p.start, total - rest.length, .other, none, 0⟩,
    ?_, ?_⟩
  · unfold Grammar.expression
    rw [run_bind_of reads, run_bind_of (run_at? _ _), comma, if_pos rfl, run_bind_of collected]
    rfl
  · exact .of_other (by rw [phrase.same]) (by rw [phrase.start, List.append_assoc]) nofun nofun
      (.inl rfl)

/-! ## Arguments -/

theorem grammar_assignment_of_opensNothing {s : ReaderState}
    (closed : opensNothing s.token.kind = true) (depth : Nat) (ctx : Context) :
    (grammar depth).assignment ctx s = none := by
  cases depth with
  | zero => rfl
  | succ depth => exact readAssignment_of_opensNothing closed _ _

/-- An expression does not start with a mark that opens nothing. -/
theorem isPunctuator_of_assignment {s : ReaderState} {depth : Nat} {r : Phrase × ReaderState}
    (reads : (grammar depth).assignment ctx s = some r) {mark : String}
    (closed : opensNothing (.punctuator mark) = true) : s.token.isPunctuator mark = false := by
  refine beq_eq_false_iff_ne.2 fun kind => ?_
  rw [grammar_assignment_of_opensNothing (kind ▸ closed)] at reads
  cases reads

/-- Whether a piece is read back as a tree where an argument of a call stands. -/
def ReadsArgument (ctx : Context) (piece : List Char) (tree : Expression) (rest : List Char) :
    Prop :=
  ∀ total notes gap depth, Fits total gap (piece ++ rest) 8 depth →
    ∃ p, readArgument (grammar depth) ctx (facing total notes (gap ++ (piece ++ rest))) =
        some (p, facing total notes rest) ∧ p.tree = tree ∧
      (facing total notes (gap ++ (piece ++ rest))).token.isPunctuator ")" = false

/-- An argument that is not spread. -/
theorem ReadsWhole.argument (whole : ReadsWhole ctx piece tree rest) :
    ReadsArgument ctx piece tree rest := by
  intro total notes gap depth fits
  obtain ⟨p, reads, phrase⟩ := whole total notes gap depth fits
  refine ⟨p, ?_, phrase.same, isPunctuator_of_assignment reads (by decide)⟩
  unfold readArgument
  rw [run_bind_of (run_current _),
    run_bind_of (run_accept_of_not (isPunctuator_of_assignment reads (by decide))),
    if_neg (by decide), reads]

theorem collect_arguments_closing {total : Nat} {notes : Notes} {gap : List Char}
    (blank : Blank gap) (room : (gap ++ ')' :: rest).length ≤ total) (g : Grammar) (fuel : Nat) :
    collect (argumentItem g ctx) (fuel + 1) (facing total notes (gap ++ ')' :: rest)) =
      some ([], facing total notes rest) := by
  have closing : Shows (gap ++ ')' :: rest) _ _ _ _ :=
    shows_closed ")" ')' (by decide) (by decide) blank
  have item : argumentItem g ctx (facing total notes (gap ++ ')' :: rest)) =
      some (none, facing total notes rest) := by
    unfold argumentItem
    rw [run_bind_of (closing.accept room rfl)]
    rfl
  rw [collect, run_bind_of item]
  rfl

theorem readsArguments_nil : ReadsArguments ctx [')'] [] rest := by
  intro total notes gap depth fuel fits enough
  obtain ⟨fuel, rfl⟩ : ∃ f, fuel = f + 1 := ⟨fuel - 1, by omega⟩
  exact ⟨[], collect_arguments_closing fits.blank fits.room _ _, rfl⟩

/-- The last argument. -/
theorem readsArguments_last (first : ReadsArgument ctx piece tree (')' :: rest)) :
    ReadsArguments ctx (piece ++ [')']) [tree] rest := by
  have text : piece ++ [')'] ++ rest = piece ++ ')' :: rest := by
    simp
  intro total notes gap depth fuel fits enough
  rw [text] at fits ⊢
  have room := fits.room
  simp only [List.length_append, List.length_cons, List.length_nil] at room enough
  obtain ⟨fuel, rfl⟩ : ∃ f, fuel = f + 2 := ⟨fuel - 2, by omega⟩
  obtain ⟨p, reads, rfl, opened⟩ := first total notes gap depth fits
  have closing : Shows (')' :: rest) _ _ _ _ :=
    shows_next ")" ')' (by decide) (by decide) _
  have item :
      argumentItem (grammar depth) ctx (facing total notes (gap ++ (piece ++ ')' :: rest))) =
        some (some p, facing total notes (')' :: rest)) := by
    unfold argumentItem
    rw [run_bind_of (run_accept_of_not opened), if_neg (by decide), run_bind_of reads,
      run_bind_of (run_at? _ _), closing.token (by simp; omega)]
    rfl
  have none : collect (argumentItem (grammar depth) ctx) (fuel + 1)
      (facing total notes (')' :: rest)) = some ([], facing total notes rest) :=
    collect_arguments_closing Blank.nil (by simp; omega) _ _
  refine ⟨[p], ?_, rfl⟩
  rw [collect, run_bind_of item]
  dsimp only
  rw [run_bind_of none]
  rfl

theorem readsArguments_cons {more : List Char} {trees : List Expression}
    (first : ReadsArgument ctx piece tree (',' :: ' ' :: (more ++ rest)))
    (others : ReadsArguments ctx more trees rest) :
    ReadsArguments ctx (piece ++ ',' :: ' ' :: more) (tree :: trees) rest := by
  have text : piece ++ ',' :: ' ' :: more ++ rest = piece ++ ',' :: ' ' :: (more ++ rest) := by
    simp
  intro total notes gap depth fuel fits enough
  rw [text] at fits ⊢
  have room := fits.room
  simp only [List.length_append, List.length_cons] at room enough
  obtain ⟨fuel, rfl⟩ : ∃ f, fuel = f + 1 := ⟨fuel - 1, by omega⟩
  obtain ⟨p, reads, rfl, opened⟩ := first total notes gap depth fits
  obtain ⟨items, collected, rfl⟩ := others total notes [' '] depth fuel (by
    refine fits.shorter Blank.space ?_ ?_ <;> simp <;> omega) (by omega)
  have comma : Shows (',' :: ' ' :: (more ++ rest)) _ _ _ _ :=
    shows_next "," ',' (by decide) (by decide) _
  have item : argumentItem (grammar depth) ctx
      (facing total notes (gap ++ (piece ++ ',' :: ' ' :: (more ++ rest)))) =
      some (some p, facing total notes (' ' :: (more ++ rest))) := by
    have other : (facing total notes (',' :: ' ' :: (more ++ rest))).token.isPunctuator ")" =
        false := by
      rw [comma.token (by simp; omega)]
      rfl
    unfold argumentItem
    rw [run_bind_of (run_accept_of_not opened), if_neg (by decide), run_bind_of reads,
      run_bind_of (run_at? _ _), other]
    simp only [Bool.false_eq_true, if_false]
    rw [run_bind_of (comma.expect (by simp; omega) rfl)]
    rfl
  refine ⟨p :: items, ?_, rfl⟩
  rw [collect, run_bind_of item]
  dsimp only
  rw [show ' ' :: (more ++ rest) = [' '] ++ (more ++ rest) from rfl, run_bind_of collected]
  rfl

end

end ReactiveMarkup.Script
