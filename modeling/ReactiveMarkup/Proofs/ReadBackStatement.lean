import ReactiveMarkup.Proofs.ReadBackFunction

/-!
# Reading back statements

Statements, blocks and branches, given that the expressions and functions in them are read back. A
statement may stand alone, under a condition or a label, and the first one of a body must not be
taken for a directive.
-/

namespace ReactiveMarkup.Script

open Reader

/-- Whether a piece is read back as a statement. -/
def ReadsStatement (ctx : Context) (isSingle isFirst : Bool) (piece : List Char) (tree : Statement)
    (exports : List String) (rest : List Char) : Prop :=
  ∀ total notes gap depth, Fits total gap (piece ++ rest) 9 depth →
    ∃ clause, (grammar depth).statement ctx isSingle (facing total notes (gap ++ (piece ++ rest))) =
        some (clause, facing total notes rest) ∧
      clause.tree = tree ∧ (isFirst = true → clause.isDirective = false) ∧ clause.exported = exports

/-! ## What a statement starts with -/

/-- The words that start statements of their own. -/
def statementWords : List String :=
  ["for", "while", "with", "do", "continue", "break", "throw", "try", "switch", "debugger", "var",
   "let", "const", "if", "return", "function", "async", "class", "import", "export", "using",
   "await"]

section

variable {g : Grammar} {ctx : Context} {isSingle : Bool} {s : ReaderState}

theorem verbatimStatement?_of_other {word : String} (other : word ∉ statementWords) :
    verbatimStatement? g ctx word = none := by
  unfold verbatimStatement?
  split <;> first | rfl | exact absurd (by decide) other

/-- A word that starts no statement of its own starts an expression or a label. -/
theorem readStatement_of_word {word : String} {escaped : Bool}
    (kind : s.token.kind = .word word escaped) (other : word ∉ statementWords) :
    readStatement g ctx isSingle s = readExpressionStatement g ctx s := by
  have noWord : ∀ w ∈ statementWords, s.token.isWord w = false := by
    intro w mem
    rw [Token.isWord, kind]
    exact beq_eq_false_iff_ne.2 fun eq => other (eq ▸ mem)
  have noKeyword : ∀ w ∈ statementWords, (word == w) = false :=
    fun w mem => beq_eq_false_iff_ne.2 fun eq => other (eq ▸ mem)
  have declared : declaration? g ctx isSingle s.token (scanToken s.token.stop) = none := by
    unfold declaration? declarationKind?
    rw [noWord "var" (by decide), noWord "let" (by decide), noWord "const" (by decide)]
    rfl
  unfold readStatement
  rw [run_bind_of (run_current _), run_bind_of (run_following _)]
  simp only [kind]
  unfold readWordStatement
  rw [verbatimStatement?_of_other other, declared]
  simp only [noKeyword "if" (by decide), noKeyword "return" (by decide), startsFunction,
    noWord "function" (by decide), noWord "async" (by decide), noKeyword "class" (by decide),
    noKeyword "import" (by decide), noKeyword "export" (by decide), startsResources,
    startsAwaitedResources, noWord "using" (by decide), noWord "await" (by decide), Bool.false_and,
    Bool.or_false, Bool.false_eq_true, if_false]

theorem readStatement_of_mark {mark : String} (kind : s.token.kind = .punctuator mark)
    (other : mark ∉ ["\x7b", ";", "@"]) :
    readStatement g ctx isSingle s = readExpressionStatement g ctx s := by
  unfold readStatement
  rw [run_bind_of (run_current _), run_bind_of (run_following _)]
  simp only [List.mem_cons, List.not_mem_nil, or_false, not_or] at other
  generalize s.token.kind = found at kind
  split
  · exact absurd (TokenKind.punctuator.inj kind).symm other.1
  · exact absurd (TokenKind.punctuator.inj kind).symm other.2.1
  · exact absurd (TokenKind.punctuator.inj kind).symm other.2.2
  · cases kind
  · rfl

theorem readExpressionStatement_of_opensNothing (closed : opensNothing s.token.kind = true)
    (depth : Nat) : readExpressionStatement (grammar depth) ctx s = none := by
  unfold readExpressionStatement Grammar.expression
  rw [run_bind, run_bind, grammar_assignment_of_opensNothing closed]
  rfl

theorem readStatement_of_noToken (kind : s.token.kind = .ended ∨ s.token.kind = .invalid)
    (depth : Nat) : readStatement (grammar depth) ctx isSingle s = none := by
  have closed : opensNothing s.token.kind = true := by
    rcases kind with kind | kind <;> rw [kind] <;> rfl
  have none : readExpressionStatement (grammar depth) ctx s = none :=
    readExpressionStatement_of_opensNothing closed depth
  unfold readStatement
  rw [run_bind_of (run_current _), run_bind_of (run_following _)]
  rcases kind with kind | kind <;> simpa only [kind] using none

/-- A statement starts neither with a closing brace, nor at the end of the script, nor with `else`,
nor where no token can be read. -/
theorem opens_of_statement {depth : Nat} {r : Clause × ReaderState}
    (reads : (grammar depth).statement ctx isSingle s = some r) :
    s.token.isPunctuator "\x7d" = false ∧ (s.token.kind == .ended) = false ∧
      s.token.isWord "else" = false ∧ s.token.kind ≠ .invalid := by
  cases depth with
  | zero => cases reads
  | succ depth =>
    rw [grammar_statement] at reads
    -- a token of any of these kinds opens no expression, and no statement of its own either
    refine ⟨?_, ?_, ?_, ?_⟩
    · refine beq_eq_false_iff_ne.2 fun kind => ?_
      rw [readStatement_of_mark kind (by decide),
        readExpressionStatement_of_opensNothing (by rw [kind]; rfl)] at reads
      cases reads
    · refine beq_eq_false_iff_ne.2 fun kind => ?_
      rw [readStatement_of_noToken (.inl kind)] at reads
      cases reads
    · cases kind : s.token.kind with
      | word text escaped =>
        rw [Token.isWord, kind]
        refine beq_eq_false_iff_ne.2 ?_
        rintro rfl
        rw [readStatement_of_word kind (by decide),
          readExpressionStatement_of_opensNothing (by rw [kind]; rfl)] at reads
        cases reads
      | _ => simp [Token.isWord, kind]
    · intro kind
      rw [readStatement_of_noToken (.inr kind)] at reads
      cases reads

end

/-- Whether a text leads a statement that is an expression or has a label. -/
def LeadsStatement (ctx : Context) (isSingle : Bool) (text : List Char) : Prop :=
  ∀ total notes gap g, Blank gap → (gap ++ text).length ≤ total →
    readStatement g ctx isSingle (facing total notes (gap ++ text)) =
      readExpressionStatement g ctx (facing total notes (gap ++ text))

theorem statementWords_known : ∀ word ∈ statementWords,
    isReserved word = true ∨ doubleWords.contains word = true := by
  decide +kernel

theorem leadsStatement_name {ctx : Context} {isSingle : Bool} {name : String} {rest : List Char}
    (plain : isPlainName name = true) (ends : endsName rest = true) :
    LeadsStatement ctx isSingle (name.toList ++ rest) := by
  intro total notes gap g blank room
  have token := (opens_word (isPlainName_spelled plain) ends gap blank).token room notes
  refine readStatement_of_word (congrArg Token.kind token) fun mem => ?_
  rcases statementWords_known name mem with reserved | double
  · exact absurd (isPlainName_ne_reserved plain reserved) (by simp)
  · exact absurd (isPlainName_ne_double plain double) (by simp)

theorem leadsStatement_of_mark {ctx : Context} {isSingle : Bool} {mark : String}
    {text rest : List Char} (opens : Opens text (.punctuator mark) rest)
    (other : mark ∉ ["\x7b", ";", "@"]) : LeadsStatement ctx isSingle text := by
  intro total notes gap g blank room
  have token := (opens gap blank).token room notes
  exact readStatement_of_mark (congrArg Token.kind token) other

/-! ## Expressions and labels -/

theorem semicolon_facing {total : Nat} {rest : List Char} (room : (';' :: rest).length ≤ total)
    (notes : Notes) :
    semicolon (facing total notes (';' :: rest)) = some ((), facing total notes rest) := by
  have mark : Shows (';' :: rest) _ _ _ _ := shows_next ";" ';' (by decide) (by decide) _
  unfold semicolon
  rw [run_bind_of (run_current _), mark.token room, if_pos (by rfl)]
  exact mark.advance room

section

variable {ctx : Context} {isSingle isFirst : Bool} {piece rest : List Char} {exports : List String}

/-- An expression. -/
theorem readsStatement_expression {tree : Expression}
    (leads : LeadsStatement ctx isSingle (piece ++ ';' :: rest))
    (value : ReadsSequence ctx.bracketed piece tree (';' :: rest))
    (noDirective : isFirst = true → tree.isVerbatim = false) :
    ReadsStatement ctx isSingle isFirst (piece ++ [';']) (.expression tree) [] rest := by
  have text : piece ++ [';'] ++ rest = piece ++ ';' :: rest := by
    simp
  intro total notes gap depth enough
  rw [text] at enough ⊢
  obtain ⟨depth, rfl, fits⟩ := enough.exists_depth
  obtain ⟨p, reads, phrase⟩ := value total notes gap depth fits
  have room := fits.room
  simp only [List.length_append, List.length_cons] at room
  have mark : Shows (';' :: rest) _ _ _ _ := shows_next ";" ';' (by decide) (by decide) _
  have room' : (';' :: rest).length ≤ total := by
    simp only [List.length_cons]
    omega
  refine ⟨⟨.expression p.tree, p.mentions, p.form == .string, []⟩, ?_, by rw [phrase.same], ?_, rfl⟩
  · rw [grammar_statement, leads total notes gap _ fits.blank fits.room]
    unfold readExpressionStatement
    rw [run_bind_of reads, run_bind_of (run_at? _ _), mark.token room']
    exact run_bind_of (semicolon_facing room' notes) _
  · intro first
    refine beq_eq_false_iff_ne.2 fun form => ?_
    have verbatim := phrase.string form
    rw [noDirective first] at verbatim
    cases verbatim

/-- A label with its statement. -/
theorem readsStatement_labeled {label : String} {tree : Statement}
    (leads : LeadsStatement ctx isSingle (label.toList ++ ':' :: ' ' :: (piece ++ rest)))
    (name : ReadsSequence ctx.bracketed label.toList (.identifier label)
      (':' :: ' ' :: (piece ++ rest)))
    (body : ReadsStatement ctx true false piece tree exports rest) :
    ReadsStatement ctx isSingle isFirst (label.toList ++ ':' :: ' ' :: piece) (.labeled label tree)
      [] rest := by
  have text : label.toList ++ ':' :: ' ' :: piece ++ rest =
      label.toList ++ ':' :: ' ' :: (piece ++ rest) := by
    simp
  intro total notes gap depth enough
  rw [text] at enough ⊢
  obtain ⟨depth, rfl, fits⟩ := enough.exists_depth
  obtain ⟨p, reads, phrase⟩ := name total notes gap depth fits
  have room := fits.room
  simp only [List.length_append, List.length_cons] at room
  obtain ⟨clause, reads', rfl, -, -⟩ := body total notes [' '] depth (by
    refine fits.shorter Blank.space ?_ ?_ <;> simp <;> omega)
  have mark : Shows (':' :: ' ' :: (piece ++ rest)) _ _ _ _ :=
    shows_next ":" ':' (by decide) (by decide) _
  have room' : (':' :: ' ' :: (piece ++ rest)).length ≤ total := by
    simp
    omega
  refine ⟨⟨.labeled label clause.tree, clause.mentions, false, []⟩, ?_, rfl, fun _ => rfl, rfl⟩
  rw [grammar_statement, leads total notes gap _ fits.blank fits.room]
  unfold readExpressionStatement
  rw [run_bind_of reads, run_bind_of (run_at? _ _), mark.token room', phrase.name label rfl]
  rw [show Token.isPunctuator _ ":" = true from rfl]
  dsimp only
  rw [run_bind_of (mark.advance room'),
    show ' ' :: (piece ++ rest) = [' '] ++ (piece ++ rest) from rfl, run_bind_of reads']
  rfl

/-! ## Statements with a keyword -/

/-- A statement that starts with a keyword is read by that keyword. -/
theorem readStatement_keyword {g : Grammar} {s : ReaderState} {word : String}
    (kind : s.token.kind = .word word false) :
    readStatement g ctx isSingle s =
      readWordStatement g ctx isSingle s.token (scanToken s.token.stop) word s := by
  unfold readStatement
  rw [run_bind_of (run_current _), run_bind_of (run_following _)]
  simp only [kind]

theorem declaration?_of_keyword {g : Grammar} {t next : Token} {word : String}
    (kind : t.kind = .word word false) (other : ["var", "let", "const"].contains word = false) :
    declaration? g ctx isSingle t next = none := by
  have noWord : ∀ w ∈ ["var", "let", "const"], t.isWord w = false := by
    intro w mem
    rw [Token.isWord, kind]
    exact beq_eq_false_iff_ne.2 fun eq => by simp [eq, mem] at other
  unfold declaration? declarationKind?
  rw [noWord "var" (by simp), noWord "let" (by simp), noWord "const" (by simp)]
  rfl

/-- A return. -/
theorem readsStatement_return (returns : ctx.returns = true) :
    ReadsStatement ctx isSingle isFirst ("return".toList ++ [';']) (.result none) [] rest := by
  intro total notes gap depth enough
  rw [List.append_assoc] at enough ⊢
  obtain ⟨depth, rfl, fits⟩ := enough.exists_depth
  have room := fits.room
  simp only [List.length_append, List.length_cons, List.length_nil] at room
  have word : Shows (gap ++ ("return".toList ++ ([';'] ++ rest))) _ _ _ _ :=
    shows_word (by decide) rfl fits.blank
  have kind := congrArg Token.kind (word.token fits.room notes)
  have mark : Shows (';' :: rest) _ _ _ _ := shows_next ";" ';' (by decide) (by decide) _
  have room' : (';' :: rest).length ≤ total := by
    simp only [List.length_cons]
    omega
  refine ⟨⟨.result none, [], false, []⟩, ?_, rfl, fun _ => rfl, rfl⟩
  rw [grammar_statement, readStatement_keyword kind]
  unfold readWordStatement
  rw [show verbatimStatement? (grammar depth) ctx "return" = none from rfl,
    declaration?_of_keyword kind (by decide)]
  dsimp only
  rw [if_neg (by decide), if_pos (by decide)]
  unfold readReturn
  rw [returns, run_bind_of (show require true _ = some ((), _) from rfl),
    run_bind_of (word.expectWord fits.room rfl), run_bind_of (run_current _),
    show [';'] ++ rest = ';' :: rest from rfl, mark.token room',
    if_pos (by rfl), run_bind_of (semicolon_facing room' notes)]
  rfl

/-- Whether the first token of a text is on the line of what comes before. -/
def AtOnce (text : List Char) : Prop :=
  ∀ total, text.length + 1 ≤ total → (scanToken (.before total (' ' :: text))).onNewLine = false

/-- A return with a value. -/
theorem readsStatement_result (returns : ctx.returns = true) {tree : Expression}
    (value : ReadsSequence ctx.bracketed piece tree (';' :: rest))
    (atOnce : AtOnce (piece ++ ';' :: rest)) :
    ReadsStatement ctx isSingle isFirst ("return".toList ++ ' ' :: (piece ++ [';']))
      (.result (some tree)) [] rest := by
  have text : ' ' :: (piece ++ [';']) ++ rest = ' ' :: (piece ++ ';' :: rest) := by
    simp
  intro total notes gap depth enough
  rw [List.append_assoc, text] at enough ⊢
  obtain ⟨depth, rfl, fits⟩ := enough.exists_depth
  have room := fits.room
  simp only [List.length_append, List.length_cons] at room
  have word : Shows (gap ++ ("return".toList ++ ' ' :: (piece ++ ';' :: rest))) _ _ _ _ :=
    shows_word (by decide) rfl fits.blank
  have kind := congrArg Token.kind (word.token fits.room notes)
  obtain ⟨p, reads, phrase⟩ := value total notes [' '] depth (by
    refine fits.shorter Blank.space ?_ ?_ <;>
      simp only [List.length_append, List.length_cons, List.length_nil] <;> omega)
  -- a value on the line of the keyword belongs to the statement
  have goesOn :
      endsStatement (facing total notes (' ' :: (piece ++ ';' :: rest))).token = false := by
    obtain ⟨first, s, assigned, -⟩ := bind_eq_some_iff.1 reads
    have opens : opensNothing (facing total notes (' ' :: (piece ++ ';' :: rest))).token.kind =
        false := by
      by_contra closed
      rw [grammar_assignment_of_opensNothing (Bool.not_eq_false _ ▸ closed)] at assigned
      cases assigned
    have sameLine : (facing total notes (' ' :: (piece ++ ';' :: rest))).token.onNewLine = false :=
      atOnce total (by simp only [List.length_append, List.length_cons]; omega)
    have noMark : ∀ mark, opensNothing (.punctuator mark) = true →
        (facing total notes (' ' :: (piece ++ ';' :: rest))).token.isPunctuator mark = false := by
      intro mark closed
      refine beq_eq_false_iff_ne.2 fun kind => ?_
      rw [kind, closed] at opens
      cases opens
    have notEnded : ((facing total notes (' ' :: (piece ++ ';' :: rest))).token.kind == .ended) =
        false := by
      refine beq_eq_false_iff_ne.2 fun kind => ?_
      rw [kind] at opens
      cases opens
    rw [endsStatement, sameLine, noMark ";" rfl, noMark "\x7d" rfl, notEnded]
    rfl
  refine ⟨⟨.result (some p.tree), p.mentions, false, []⟩, ?_, by rw [phrase.same], fun _ => rfl,
    rfl⟩
  rw [grammar_statement, readStatement_keyword kind]
  unfold readWordStatement
  rw [show verbatimStatement? (grammar depth) ctx "return" = none from rfl,
    declaration?_of_keyword kind (by decide)]
  dsimp only
  rw [if_neg (by decide), if_pos (by decide)]
  unfold readReturn
  rw [returns, run_bind_of (show require true _ = some ((), _) from rfl),
    run_bind_of (word.expectWord fits.room rfl), run_bind_of (run_current _), goesOn,
    if_neg (by decide),
    show ' ' :: (piece ++ ';' :: rest) = [' '] ++ (piece ++ ';' :: rest) from rfl,
    run_bind_of reads,
    run_bind_of (semicolon_facing (by simp only [List.length_cons]; omega) notes)]
  rfl

/-! ## Conditions -/

/-- Whether no `else` follows. -/
def NoElse (rest : List Char) : Prop :=
  ∀ total, rest.length ≤ total → (scanToken (.before total rest)).isWord "else" = false

/-- The text of a condition up to its first branch. -/
def testText (test : List Char) : List Char := "if".toList ++ ' ' :: '(' :: (test ++ [')', ' '])

theorem testText_append (test more : List Char) :
    testText test ++ more = "if".toList ++ ([' '] ++ '(' :: (test ++ ')' :: ([' '] ++ more))) := by
  unfold testText
  generalize "if".toList = word
  simp only [List.append_assoc, List.cons_append, List.nil_append]

section

variable {test : List Char} {tree : Expression} {consequent : Statement}

/-- The keyword, the test and the first branch of a condition. -/
theorem readIf_facing {more : List Char}
    (readsTest : ReadsSequence ctx.bracketed test tree (')' :: ([' '] ++ (piece ++ more))))
    (branch : ReadsStatement ctx true false piece consequent exports more) {total : Nat}
    (notes : Notes) {gap : List Char} {depth : Nat}
    (fits : Fits total gap (testText test ++ (piece ++ more)) 8 depth) :
    ∃ (p : Phrase) (clause : Clause), (grammar (depth + 1)).statement ctx isSingle
        (facing total notes (gap ++ (testText test ++ (piece ++ more)))) = (do
          if ← acceptWord "else" then
            let alternate ← (grammar depth).statement ctx true
            return {
              tree := .conditional tree consequent (some alternate.tree)
              mentions := p.mentions ++ clause.mentions ++ alternate.mentions }
          else
            return {
              tree := .conditional tree consequent none
              mentions := p.mentions ++ clause.mentions } : Reader Clause)
        (facing total notes more) ∧ p.tree = tree ∧ clause.tree = consequent := by
  rw [testText_append] at fits ⊢
  have room := fits.room
  simp only [List.length_append, List.length_cons, List.length_nil] at room
  have word : Shows (gap ++ ("if".toList ++ ([' '] ++ '(' :: (test ++ ')' :: ([' '] ++
      (piece ++ more)))))) _ _ _ _ := shows_word (by decide) rfl fits.blank
  have kind := congrArg Token.kind (word.token fits.room notes)
  have opening : Shows ([' '] ++ '(' :: (test ++ ')' :: ([' '] ++ (piece ++ more)))) _ _ _ _ :=
    shows_closed "(" '(' (by decide) (by decide) Blank.space
  have closing : Shows (')' :: ([' '] ++ (piece ++ more))) _ _ _ _ :=
    shows_next ")" ')' (by decide) (by decide) _
  obtain ⟨p, readTest, phrase⟩ := readsTest total notes [] depth (by
    refine fits.shorter Blank.nil ?_ ?_ <;>
      simp only [List.length_append, List.length_cons, List.length_nil] <;> omega)
  obtain ⟨clause, readBranch, rfl, -, -⟩ := branch total notes [' '] depth (by
    refine fits.shorter Blank.space ?_ ?_ <;>
      simp only [List.length_append, List.length_cons, List.length_nil] <;> omega)
  -- behind the keyword comes the test in its parentheses, and then the branch
  have head : readHead (grammar depth) ctx (facing total notes ([' '] ++ '(' :: (test ++ ')' ::
      ([' '] ++ (piece ++ more))))) = some (p, facing total notes ([' '] ++ (piece ++ more))) := by
    unfold readHead
    rw [run_bind_of (opening.expect (by
        simp only [List.length_append, List.length_cons, List.length_nil]; omega) rfl),
      ← List.nil_append (test ++ _), run_bind_of readTest,
      run_bind_of (closing.expect (by
        simp only [List.length_append, List.length_cons, List.length_nil]; omega) rfl)]
    rfl
  refine ⟨p, clause, ?_, phrase.same, rfl⟩
  rw [grammar_statement, readStatement_keyword kind]
  unfold readWordStatement
  rw [show verbatimStatement? (grammar depth) ctx "if" = none from rfl,
    declaration?_of_keyword kind (by decide)]
  dsimp only
  rw [if_pos (by decide)]
  unfold readIf
  rw [run_bind_of (word.expectWord fits.room rfl), run_bind_of head, run_bind_of readBranch,
    phrase.same]

/-- A condition with one branch. -/
theorem readsStatement_if
    (readsTest : ReadsSequence ctx.bracketed test tree (')' :: ([' '] ++ (piece ++ rest))))
    (branch : ReadsStatement ctx true false piece consequent exports rest) (noElse : NoElse rest) :
    ReadsStatement ctx isSingle isFirst (testText test ++ piece) (.conditional tree consequent none)
      [] rest := by
  intro total notes gap depth enough
  rw [List.append_assoc] at enough ⊢
  obtain ⟨depth, rfl, fits⟩ := enough.exists_depth
  obtain ⟨p, clause, reads, -, -⟩ := readIf_facing readsTest branch notes fits
  have room := fits.room
  simp only [List.length_append] at room
  have other : (facing total notes rest).token.isWord "else" = false := noElse total (by omega)
  refine ⟨⟨.conditional tree consequent none, p.mentions ++ clause.mentions, false, []⟩, ?_, rfl,
    fun _ => rfl, rfl⟩
  rw [reads, run_bind_of (run_acceptWord_of_not other)]
  rfl

/-- A condition with two branches. -/
theorem readsStatement_ifElse {piece' : List Char} {alternate : Statement} {exports' : List String}
    (readsTest : ReadsSequence ctx.bracketed test tree
      (')' :: ([' '] ++ (piece ++ ([' '] ++ ("else".toList ++ ([' '] ++ (piece' ++ rest))))))))
    (branch : ReadsStatement ctx true false piece consequent exports
      ([' '] ++ ("else".toList ++ ([' '] ++ (piece' ++ rest)))))
    (branch' : ReadsStatement ctx true false piece' alternate exports' rest) :
    ReadsStatement ctx isSingle isFirst
      (testText test ++ (piece ++ ([' '] ++ ("else".toList ++ ([' '] ++ piece')))))
      (.conditional tree consequent (some alternate)) [] rest := by
  have text : testText test ++ (piece ++ ([' '] ++ ("else".toList ++ ([' '] ++ piece')))) ++ rest =
      testText test ++ (piece ++ ([' '] ++ ("else".toList ++ ([' '] ++ (piece' ++ rest))))) := by
    generalize "else".toList = word
    simp only [List.append_assoc]
  intro total notes gap depth enough
  rw [text] at enough ⊢
  obtain ⟨depth, rfl, fits⟩ := enough.exists_depth
  obtain ⟨p, clause, reads, -, -⟩ := readIf_facing readsTest branch notes fits
  have room := fits.room
  simp only [List.length_append, List.length_cons, List.length_nil] at room
  have word : Shows ([' '] ++ ("else".toList ++ ([' '] ++ (piece' ++ rest)))) _ _ _ _ :=
    shows_word (by decide) rfl Blank.space
  obtain ⟨clause', reads', rfl, -, -⟩ := branch' total notes [' '] depth (by
    refine fits.shorter Blank.space ?_ ?_ <;>
      simp only [List.length_append, List.length_cons, List.length_nil] <;> omega)
  refine ⟨⟨.conditional tree consequent (some clause'.tree),
    p.mentions ++ clause.mentions ++ clause'.mentions, false, []⟩, ?_, rfl, fun _ => rfl, rfl⟩
  rw [reads, run_bind_of (word.acceptWord (by
    simp only [List.length_append, List.length_cons, List.length_nil]; omega) rfl), if_pos rfl,
    run_bind_of reads']
  rfl

end

/-! ## Blocks -/

/-- Whether statements, with the closing brace behind them, are read back. -/
def ReadsLines (ctx : Context) (isFirst : Bool) (piece : List Char) (trees : List Statement)
    (rest : List Char) : Prop :=
  ∀ total notes gap depth fuel, Fits total gap (piece ++ rest) 9 depth → piece.length + 1 ≤ fuel →
    ∃ clauses, collect (blockItem (grammar depth) ctx) fuel
        (facing total notes (gap ++ (piece ++ rest))) = some (clauses, facing total notes rest) ∧
      clauses.map Clause.tree = trees ∧
      (isFirst = true → clauses.dropWhile Clause.isDirective = clauses)

theorem readsLines_nil : ReadsLines ctx isFirst ['\x7d'] [] rest := by
  intro total notes gap depth fuel fits enough
  obtain ⟨fuel, rfl⟩ : ∃ f, fuel = f + 1 := ⟨fuel - 1, by omega⟩
  have closing : Shows (gap ++ (['\x7d'] ++ rest)) _ _ _ _ :=
    shows_closed "\x7d" '\x7d' (by decide) (by decide) fits.blank
  have item : blockItem (grammar depth) ctx (facing total notes (gap ++ (['\x7d'] ++ rest))) =
      some (none, facing total notes rest) := by
    unfold blockItem
    rw [run_bind_of (closing.accept fits.room rfl)]
    rfl
  refine ⟨[], ?_, rfl, fun _ => rfl⟩
  rw [collect, run_bind_of item]
  rfl

theorem readsLines_cons {tree : Statement} {indent more : List Char} {trees : List Statement}
    (first : ReadsStatement ctx false isFirst piece tree exports
      ('\n' :: (indent ++ (more ++ rest))))
    (blank : Blank indent) (others : ReadsLines ctx false more trees rest) :
    ReadsLines ctx isFirst (piece ++ '\n' :: (indent ++ more)) (tree :: trees) rest := by
  have text : piece ++ '\n' :: (indent ++ more) ++ rest =
      piece ++ '\n' :: (indent ++ (more ++ rest)) := by
    simp
  intro total notes gap depth fuel fits enough
  rw [text] at fits ⊢
  simp only [List.length_append, List.length_cons] at enough
  obtain ⟨fuel, rfl⟩ : ∃ f, fuel = f + 1 := ⟨fuel - 1, by omega⟩
  obtain ⟨clause, reads, rfl, noDirective, -⟩ := first total notes gap depth fits
  obtain ⟨clauses, collected, rfl, -⟩ := others total notes ('\n' :: indent) depth fuel (by
    refine fits.shorter blank.cons_newLine ?_ ?_ <;> simp <;> omega) (by omega)
  have item : blockItem (grammar depth) ctx
      (facing total notes (gap ++ (piece ++ '\n' :: (indent ++ (more ++ rest))))) =
      some (some clause, facing total notes ('\n' :: indent ++ (more ++ rest))) := by
    unfold blockItem
    rw [run_bind_of (run_accept_of_not (opens_of_statement reads).1), if_neg (by decide),
      run_bind_of reads]
    rfl
  refine ⟨clause :: clauses, ?_, rfl, fun isFirst => ?_⟩
  · rw [collect, run_bind_of item]
    dsimp only
    rw [run_bind_of collected]
    rfl
  · rw [List.dropWhile_cons_of_neg (by rw [noDirective isFirst]; decide)]

theorem readBlock_facing {indent more : List Char} {trees : List Statement}
    (lines : ReadsLines ctx isFirst more trees rest) (blank : Blank indent) {total : Nat}
    (notes : Notes) {gap : List Char} {depth : Nat}
    (fits : Fits total gap ('\x7b' :: (indent ++ more) ++ rest) 8 depth) :
    ∃ clauses, readBlock (grammar depth) ctx
        (facing total notes (gap ++ ('\x7b' :: (indent ++ more) ++ rest))) =
        some (clauses, facing total notes rest) ∧ clauses.map Clause.tree = trees ∧
      (isFirst = true → clauses.dropWhile Clause.isDirective = clauses) := by
  have text : '\x7b' :: (indent ++ more) ++ rest = '\x7b' :: (indent ++ (more ++ rest)) := by
    simp
  rw [text] at fits ⊢
  have opening : Shows (gap ++ '\x7b' :: (indent ++ (more ++ rest))) _ _ _ _ :=
    shows_closed "\x7b" '\x7b' (by decide) (by decide) fits.blank
  have fuel := fits.fuel
  simp only [List.length_append, List.length_cons] at fuel
  obtain ⟨clauses, collected, eq⟩ := lines total notes indent depth (grammar depth).limit (by
    refine fits.shorter blank ?_ ?_ <;> simp <;> omega) (by
    rw [grammar_limit]
    omega)
  refine ⟨clauses, ?_, eq⟩
  unfold readBlock
  rw [run_bind_of (opening.expect fits.room rfl), collected]

/-- The body of a function. -/
theorem readsBody_of_lines {indent more : List Char} {trees : List Statement}
    (lines : ReadsLines ctx true more trees rest) (blank : Blank indent) :
    ReadsBody ctx ('\x7b' :: (indent ++ more)) trees rest := by
  intro total notes gap depth fits
  obtain ⟨clauses, reads, rfl, noDirective⟩ := readBlock_facing lines blank notes fits
  refine ⟨clauses, ?_, rfl⟩
  unfold readFunctionBody
  rw [run_bind_of reads, noDirective rfl]
  rfl

/-- A block. -/
theorem readsStatement_block {indent more : List Char} {trees : List Statement}
    (lines : ReadsLines ctx false more trees rest) (blank : Blank indent) :
    ReadsStatement ctx isSingle isFirst ('\x7b' :: (indent ++ more)) (.block 0 trees) [] rest := by
  intro total notes gap depth enough
  obtain ⟨depth, rfl, fits⟩ := enough.exists_depth
  obtain ⟨clauses, reads, rfl, -⟩ := readBlock_facing lines blank notes fits
  have opening : Shows (gap ++ ('\x7b' :: (indent ++ more) ++ rest)) _ _ _ _ :=
    shows_closed "\x7b" '\x7b' (by decide) (by decide) fits.blank
  refine ⟨⟨.block 0 (clauses.map Clause.tree), clauses.flatMap Clause.mentions, false, []⟩, ?_, rfl,
    fun _ => rfl, rfl⟩
  rw [grammar_statement]
  unfold readStatement
  rw [run_bind_of (run_current _), run_bind_of (run_following _), opening.token fits.room]
  exact run_bind_of reads _

/-! ## Functions -/

/-- A function that is declared is a statement; one that stands alone is plain. -/
theorem readFunctionStatement_of_declaration {g : Grammar} {scan : FunctionScan}
    {s s' : ReaderState} (reads : readFunctionDeclaration g ctx s = some (scan, s'))
    (alone : isSingle = true → scan.function.signature.isAsync = false ∧
      scan.function.signature.isGenerator = false) :
    readFunctionStatement g ctx isSingle s =
      some (⟨.function scan.function, scan.mentions, false, []⟩, s') := by
  have allowed : (!isSingle || (!scan.function.signature.isAsync &&
      !scan.function.signature.isGenerator)) = true := by
    cases isSingle with
    | false => rfl
    | true => simp [alone rfl]
  unfold readFunctionStatement
  rw [run_bind_of reads, run_bind, run_require, allowed]
  rfl

/-- A declaration that starts with the keyword of functions. -/
theorem statement_function {depth : Nat} {scan : FunctionScan} {s s' : ReaderState}
    (kind : s.token.kind = .word "function" false)
    (reads : readFunction (grammar depth) (fun _ _ => ctx) true false s = some (scan, s'))
    (alone : isSingle = true → scan.function.signature.isAsync = false ∧
      scan.function.signature.isGenerator = false) :
    (grammar (depth + 1)).statement ctx isSingle s =
      some (⟨.function scan.function, scan.mentions, false, []⟩, s') := by
  have noAsync : s.token.isWord "async" = false := by
    rw [Token.isWord, kind]
    rfl
  have starts : startsFunction s.token (scanToken s.token.stop) = true := by
    simp [startsFunction, Token.isWord, kind]
  have declares : readFunctionDeclaration (grammar depth) ctx s = some (scan, s') := by
    unfold readFunctionDeclaration
    rw [run_bind_of (run_acceptWord_of_not noAsync), reads]
  rw [grammar_statement, readStatement_keyword kind]
  unfold readWordStatement
  rw [show verbatimStatement? (grammar depth) ctx "function" = none from rfl,
    declaration?_of_keyword kind (by decide)]
  dsimp only
  rw [if_neg (by decide), if_neg (by decide), if_pos starts]
  exact readFunctionStatement_of_declaration declares alone

/-- A declaration that starts with `async`. -/
theorem statement_asyncFunction {depth : Nat} {scan : FunctionScan} {s s₁ s' : ReaderState}
    (kind : s.token.kind = .word "async" false)
    (starts : startsFunction s.token (scanToken s.token.stop) = true)
    (accepted : acceptWord "async" s = some (true, s₁))
    (reads : readFunction (grammar depth) (fun _ _ => ctx) true true s₁ = some (scan, s'))
    (alone : isSingle = true → scan.function.signature.isAsync = false ∧
      scan.function.signature.isGenerator = false) :
    (grammar (depth + 1)).statement ctx isSingle s =
      some (⟨.function scan.function, scan.mentions, false, []⟩, s') := by
  have declares : readFunctionDeclaration (grammar depth) ctx s = some (scan, s') := by
    unfold readFunctionDeclaration
    rw [run_bind_of accepted, reads]
  rw [grammar_statement, readStatement_keyword kind]
  unfold readWordStatement
  rw [show verbatimStatement? (grammar depth) ctx "async" = none from rfl,
    declaration?_of_keyword kind (by decide)]
  dsimp only
  rw [if_neg (by decide), if_neg (by decide), if_pos starts]
  exact readFunctionStatement_of_declaration declares alone

/-- A declaration of a function. -/
theorem readsStatement_function {isAsync isGenerator : Bool} {name : String}
    {params body : List Char} {texts names : List String} {trees : List Statement}
    (bindable : isBindable ctx name = true)
    (readsParams : ReadsParameters (.function isAsync isGenerator) ('(' :: params) texts names
      (' ' :: (body ++ rest)))
    (readsBody : ReadsBody (.function isAsync isGenerator) body trees rest)
    (alone : isSingle = true → isAsync = false ∧ isGenerator = false) :
    ReadsStatement ctx isSingle isFirst
      (asyncText isAsync ++ functionText isGenerator (some name) params body)
      (.function ⟨0, ⟨some name, false, isAsync, isGenerator, texts, names⟩, .block trees⟩) []
      rest := by
  have run : ∀ total notes gap depth,
      Fits total gap (functionText isGenerator (some name) params body ++ rest) 7 depth →
      ∃ scan, readFunction (grammar depth) (fun _ _ => ctx) true isAsync
          (facing total notes (gap ++ (functionText isGenerator (some name) params body ++ rest))) =
          some (scan, facing total notes rest) ∧
        scan.function = ⟨0, ⟨some name, false, isAsync, isGenerator, texts, names⟩, .block trees⟩ :=
    fun _ notes _ _ fits => readFunction_facing
      (fun _ eq => by cases eq; exact bindable) (fun eq => by cases eq) readsParams readsBody notes
      fits
  obtain ⟨after, opens⟩ := opens_functionText isGenerator (some name) params body rest
  intro total notes gap depth enough
  rw [List.append_assoc] at enough ⊢
  obtain ⟨depth, rfl, fits⟩ := enough.exists_depth
  have room := fits.room
  cases isAsync with
  | false =>
    rw [show asyncText false ++ (functionText isGenerator (some name) params body ++ rest) =
      functionText isGenerator (some name) params body ++ rest from rfl] at fits room ⊢
    have kind := congrArg Token.kind ((opens gap fits.blank).token room notes)
    obtain ⟨scan, reads, tree⟩ := run total notes gap depth (fits.shorter fits.blank (Nat.le_refl _)
      (by omega))
    exact ⟨_, statement_function kind reads (by rw [tree]; exact alone), by rw [tree], fun _ => rfl,
      rfl⟩
  | true =>
    have word := opens_asyncText (functionText isGenerator (some name) params body ++ rest) gap
      fits.blank
    have token := word.token fits.room notes
    simp only [asyncText_append, List.length_append, List.length_cons] at room
    have next := (opens [' '] Blank.space).token (show _ ≤ total by
      simp only [List.length_append, List.length_cons, List.length_nil]
      omega) notes
    obtain ⟨scan, reads, tree⟩ := run total notes [' '] depth (by
      refine fits.shorter Blank.space ?_ ?_ <;>
        simp only [asyncText_append, List.length_append, List.length_cons, List.length_nil] <;>
        omega)
    -- what makes it a function is the word behind `async`
    have starts : startsFunction (facing total notes (gap ++ (asyncText true ++
        (functionText isGenerator (some name) params body ++ rest)))).token
        (scanToken (facing total notes (gap ++ (asyncText true ++
        (functionText isGenerator (some name) params body ++ rest)))).token.stop) = true := by
      rw [token]
      change startsFunction _ (facing total notes ([' '] ++ (functionText isGenerator (some name)
        params body ++ rest))).token = true
      rw [next]
      rfl
    exact ⟨_, statement_asyncFunction (congrArg Token.kind token) starts
      (word.acceptWord fits.room rfl) reads (by rw [tree]; exact alone), by rw [tree], fun _ => rfl,
      rfl⟩

end

end ReactiveMarkup.Script
