import ReactiveMarkup.Proofs.ArrowTrial

/-!
# Reading back functions

Functions with a keyword and arrows, given that their parameters and their bodies are read back. An
arrow stands where a whole expression does, a function with a keyword where an operand does.
-/

namespace ReactiveMarkup.Script

open Reader

/-! ## Parameters and bodies -/

/-- Whether a piece is read back as the parameters with the given texts, which bind the given
names. -/
def ReadsParameters (ctx : Context) (piece : List Char) (texts names : List String)
    (rest : List Char) : Prop :=
  ∀ total notes gap depth, Fits total gap (piece ++ rest) 7 depth →
    ∃ params, readParameters (grammar depth) ctx (facing total notes (gap ++ (piece ++ rest))) =
        some (params, facing total notes rest) ∧
      params.texts = texts ∧ boundNames params.mentions = names

/-- Whether a piece is read back as the body of a function with the given statements. -/
def ReadsBody (ctx : Context) (piece : List Char) (trees : List Statement) (rest : List Char) :
    Prop :=
  ∀ total notes gap depth, Fits total gap (piece ++ rest) 8 depth →
    ∃ clauses, readFunctionBody (grammar depth) ctx (facing total notes (gap ++ (piece ++ rest))) =
        some (clauses, facing total notes rest) ∧
      clauses.map Clause.tree = trees

/-- Whether a word may be bound in a context. -/
def isBindable (ctx : Context) (name : String) : Bool :=
  isSpelled name && !isReserved name && !(name == "await" && ctx.awaits) &&
    !(name == "yield" && ctx.yields)

theorem isSpelled_of_isBindable {ctx : Context} {name : String}
    (bindable : isBindable ctx name = true) : isSpelled name = true := by
  simp only [isBindable, Bool.and_eq_true] at bindable
  exact bindable.1.1.1

theorem isNameToken_of_isBindable {ctx : Context} {name : String}
    (bindable : isBindable ctx name = true) {t : Token} (word : t.kind = .word name false) :
    isNameToken ctx t = true := by
  simp only [isBindable, Bool.and_eq_true] at bindable
  simp only [isNameToken, word, bindable, Bool.and_self]

/-! ## Functions with a keyword -/

/-- The star of a generator. -/
def starText (isGenerator : Bool) : List Char := if isGenerator then ['*'] else []

/-- The name of a function behind its keyword. -/
def nameText : Option String → List Char
  | none => []
  | some name => ' ' :: name.toList

theorem endsName_starText (isGenerator : Bool) (name : Option String) (more : List Char) :
    endsName (starText isGenerator ++ (nameText name ++ '(' :: more)) = true := by
  cases isGenerator <;> cases name <;> rfl

section

variable {total : Nat} {notes : Notes} {more : List Char}

theorem functionName_facing {name : Option String}
    (room : (nameText name ++ '(' :: more).length ≤ total) {ctx : Context}
    (bindable : ∀ n, name = some n → isBindable ctx n = true) {isNeeded : Bool}
    (needed : name = none → isNeeded = false) :
    functionName ctx isNeeded (facing total notes (nameText name ++ '(' :: more)) =
      some (name, facing total notes ('(' :: more)) := by
  cases name with
  | none =>
    have opening : Shows ('(' :: more) _ _ _ _ := shows_next "(" '(' (by decide) (by decide) _
    have other : isNameToken ctx (facing total notes ('(' :: more)).token = false := by
      rw [opening.token room]
      rfl
    unfold functionName
    rw [needed rfl, if_neg (by decide), nameText, List.nil_append, run_bind_of (run_current _),
      other]
    rfl
  | some n =>
    have spelled := isSpelled_of_isBindable (bindable n rfl)
    have word : Shows ([' '] ++ (n.toList ++ '(' :: more)) _ _ _ _ :=
      shows_word spelled rfl Blank.space
    have isName : isNameToken ctx (facing total notes ([' '] ++ (n.toList ++ '(' :: more))).token =
        true := isNameToken_of_isBindable (bindable n rfl) (by rw [word.token room])
    have taken : takeName ctx (facing total notes ([' '] ++ (n.toList ++ '(' :: more))) =
        some (n, facing total notes ('(' :: more)) :=
      takeName_facing word room fun _ kind => isNameToken_of_isBindable (bindable n rfl) kind
    unfold functionName
    rw [show nameText (some n) ++ '(' :: more = [' '] ++ (n.toList ++ '(' :: more) from rfl]
    split
    · rw [run_bind_of taken]
      rfl
    · rw [run_bind_of (run_current _), isName, if_pos rfl, run_bind_of taken]
      rfl

theorem markAt_star (name : Option String) (more : List Char) :
    MarkAt "*" (nameText name ++ '(' :: more) := by
  cases name with
  | none => exact ⟨rfl, rfl, rfl⟩
  | some n => exact markAt_blank (by decide) _

theorem accept_star {isGenerator : Bool} {name : Option String}
    (spelled : ∀ n, name = some n → isSpelled n = true)
    (room : (starText isGenerator ++ (nameText name ++ '(' :: more)).length ≤ total) :
    accept "*" (facing total notes (starText isGenerator ++ (nameText name ++ '(' :: more))) =
      some (isGenerator, facing total notes (nameText name ++ '(' :: more)) := by
  cases isGenerator with
  | true => exact ((markAt_star name more).shows Blank.nil).accept room rfl
  | false =>
    refine run_accept_of_not ?_
    cases name with
    | none =>
      rw [show starText false ++ (nameText none ++ '(' :: more) = '(' :: more from rfl,
        (shows_next "(" '(' (by decide) (by decide) more).token room]
      rfl
    | some n =>
      have word : Shows ([' '] ++ (n.toList ++ '(' :: more)) _ _ _ _ :=
        shows_word (spelled n rfl) rfl Blank.space
      rw [show starText false ++ (nameText (some n) ++ '(' :: more) =
        [' '] ++ (n.toList ++ '(' :: more) from rfl, word.token room]
      rfl

end

/-- The text of a function from its keyword on. -/
def functionText (isGenerator : Bool) (name : Option String) (params body : List Char) :
    List Char :=
  "function".toList ++ (starText isGenerator ++ (nameText name ++ '(' :: (params ++ ' ' :: body)))

theorem functionText_append (isGenerator : Bool) (name : Option String)
    (params body rest : List Char) :
    functionText isGenerator name params body ++ rest =
      "function".toList ++ (starText isGenerator ++
        (nameText name ++ '(' :: (params ++ ' ' :: (body ++ rest)))) := by
  unfold functionText
  generalize "function".toList = word
  simp only [List.append_assoc, List.cons_append]

section

variable {isAsync isGenerator : Bool} {name : Option String} {params body rest : List Char}
  {texts names : List String} {trees : List Statement}

theorem readFunction_facing {nameContext : Bool → Bool → Context} {isNeeded : Bool}
    (bindable : ∀ n, name = some n → isBindable (nameContext isAsync isGenerator) n = true)
    (needed : name = none → isNeeded = false)
    (readsParams : ReadsParameters (.function isAsync isGenerator) ('(' :: params) texts names
      (' ' :: (body ++ rest)))
    (readsBody : ReadsBody (.function isAsync isGenerator) body trees rest)
    {total : Nat} (notes : Notes) {gap : List Char} {depth : Nat}
    (fits : Fits total gap (functionText isGenerator name params body ++ rest) 7 depth) :
    ∃ scan, readFunction (grammar depth) nameContext isNeeded isAsync
        (facing total notes (gap ++ (functionText isGenerator name params body ++ rest))) =
        some (scan, facing total notes rest) ∧
      scan.function = ⟨0, ⟨name, false, isAsync, isGenerator, texts, names⟩, .block trees⟩ := by
  rw [functionText_append] at fits ⊢
  have keyword : Shows (gap ++ ("function".toList ++ (starText isGenerator ++
      (nameText name ++ '(' :: (params ++ ' ' :: (body ++ rest)))))) _ _ _ _ :=
    shows_word (by decide) (endsName_starText _ _ _) fits.blank
  have room := fits.room
  simp only [List.length_append, List.length_cons] at room
  obtain ⟨ps, readPs, rfl, rfl⟩ := readsParams total notes [] depth (by
    refine fits.shorter Blank.nil ?_ ?_ <;> simp <;> omega)
  obtain ⟨clauses, readCs, rfl⟩ := readsBody total notes [' '] depth (by
    refine fits.shorter Blank.space ?_ ?_ <;> simp <;> omega)
  refine ⟨.ofBlock name false isAsync isGenerator ps clauses, ?_, rfl⟩
  unfold readFunction
  rw [run_bind_of (keyword.expectWord fits.room rfl),
    run_bind_of (accept_star (fun n eq => isSpelled_of_isBindable (bindable n eq))
      (by simp; omega)),
    run_bind_of (functionName_facing (by simp; omega) bindable needed),
    show '(' :: (params ++ ' ' :: (body ++ rest)) = [] ++ ('(' :: params ++ ' ' :: (body ++ rest))
    from rfl, run_bind_of readPs, show ' ' :: (body ++ rest) = [' '] ++ (body ++ rest) from rfl,
    run_bind_of readCs]
  rfl

/-! ### As an operand -/

/-- The word before an asynchronous function. -/
def asyncText (isAsync : Bool) : List Char := if isAsync then "async".toList ++ [' '] else []

theorem asyncText_append (text : List Char) :
    asyncText true ++ text = "async".toList ++ ' ' :: text := by
  rw [asyncText, if_pos rfl, List.append_assoc]
  rfl

/-- The token that a function with a keyword starts with. -/
theorem opens_functionText (isGenerator : Bool) (name : Option String)
    (params body rest : List Char) :
    ∃ after, Opens (functionText isGenerator name params body ++ rest) (.word "function" false)
      after := by
  rw [functionText_append]
  exact ⟨_, opens_word (by decide) (endsName_starText _ _ _)⟩

theorem opens_asyncText (text : List Char) :
    Opens (asyncText true ++ text) (.word "async" false) (' ' :: text) := by
  rw [asyncText_append]
  exact opens_word (by decide) rfl

theorem startsOperand_of_word {ctx : Context} {text after : List Char} {word : String}
    (opens : Opens text (.word word false) after) (plain : unaryWords.contains word = false)
    (notAwait : word ≠ "await") : StartsOperand ctx text := by
  intro total gap blank room
  simp only [opens gap blank total room]
  refine ⟨rfl, rfl, plain, ?_⟩
  simp [Token.isWord, notAwait]

theorem readChainStart_of_word {g : Grammar} {ctx : Context} {s : ReaderState} {word : String}
    (kind : s.token.kind = .word word false)
    (plain : ["super", "import", "new"].contains word = false) :
    readChainStart g ctx s = readWord g ctx word s := by
  have other : ∀ w ∈ ["super", "import", "new"], s.token.isWord w = false := by
    intro w mem
    rw [Token.isWord, kind]
    exact beq_eq_false_iff_ne.2 fun eq => by simp [eq, mem] at plain
  unfold readChainStart
  rw [run_bind_of (run_current _), other "super" (by simp), other "import" (by simp),
    other "new" (by simp), if_neg (by decide), if_neg (by decide), if_neg (by decide)]
  unfold readPrimary
  rw [run_bind_of (run_current _)]
  simp only [kind]

/-- What starts with a word that is no operator and is read as a function. -/
theorem readsChain_of_functionPhrase {ctx : Context} {piece after : List Char} {word : String}
    (opens : Opens (piece ++ rest) (.word word false) after)
    (plain : unaryWords.contains word = false) (notAwait : word ≠ "await")
    (starts : ["super", "import", "new"].contains word = false) {function : Function}
    (reads : ∀ total notes gap depth, Fits total gap (piece ++ rest) 7 depth → ∃ scan,
      readWord (grammar depth) ctx word (facing total notes (gap ++ (piece ++ rest))) =
        functionPhrase (.before total (piece ++ rest)) scan (facing total notes rest) ∧
      scan.function = function) :
    ReadsChain ctx piece (.function function) rest := by
  refine ⟨startsOperand_of_word opens plain notAwait, fun total notes gap depth fits => ?_⟩
  obtain ⟨scan, word_, rfl⟩ := reads total notes gap depth fits
  refine ⟨⟨.function scan.function, scan.mentions, .before total (piece ++ rest),
    total - rest.length, .other, none, 0⟩, (grammar depth).limit, Nat.le_add_right _ _, ?_, ?_⟩
  · have kind : (facing total notes (gap ++ (piece ++ rest))).token.kind = .word word false := by
      rw [(opens gap fits.blank).token fits.room]
    unfold readChain
    rw [run_bind_of ((readChainStart_of_word kind starts).trans word_)]
    rfl
  · exact .of_other rfl rfl nofun nofun (.inl rfl)

/-- A function expression. -/
theorem readsChain_function {ctx : Context}
    (bindable : ∀ n, name = some n → isBindable (.function isAsync isGenerator) n = true)
    (readsParams : ReadsParameters (.function isAsync isGenerator) ('(' :: params) texts names
      (' ' :: (body ++ rest)))
    (readsBody : ReadsBody (.function isAsync isGenerator) body trees rest) :
    ReadsChain ctx (asyncText isAsync ++ functionText isGenerator name params body)
      (.function ⟨0, ⟨name, false, isAsync, isGenerator, texts, names⟩, .block trees⟩) rest := by
  -- the function itself is read the same way with `async` before it or without
  have run : ∀ total notes gap depth,
      Fits total gap (functionText isGenerator name params body ++ rest) 7 depth →
      ∃ scan, readFunction (grammar depth) Context.function false isAsync
          (facing total notes (gap ++ (functionText isGenerator name params body ++ rest))) =
          some (scan, facing total notes rest) ∧
        scan.function = ⟨0, ⟨name, false, isAsync, isGenerator, texts, names⟩, .block trees⟩ :=
    fun _ notes _ _ fits =>
      readFunction_facing bindable (fun _ => rfl) readsParams readsBody notes fits
  obtain ⟨after, opens⟩ := opens_functionText isGenerator name params body rest
  cases isAsync with
  | false =>
    refine readsChain_of_functionPhrase opens (by decide) (by decide) (by decide)
      fun total notes gap depth fits => ?_
    obtain ⟨scan, reads, tree⟩ := run total notes gap depth fits
    refine ⟨scan, ?_, tree⟩
    unfold readWord
    rw [run_bind_of (run_current _), run_bind_of (run_following _), if_neg (by decide),
      if_pos (by decide)]
    unfold readFunctionExpression
    rw [run_bind_of (run_current _), if_neg (by decide)]
    dsimp only
    rw [run_bind_of reads, (opens gap fits.blank).token fits.room]
  | true =>
    have text : asyncText true ++ functionText isGenerator name params body ++ rest =
        asyncText true ++ (functionText isGenerator name params body ++ rest) :=
      List.append_assoc _ _ _
    have word := opens_asyncText (functionText isGenerator name params body ++ rest)
    rw [← text] at word
    refine readsChain_of_functionPhrase word (by decide) (by decide) (by decide)
      fun total notes gap depth fits => ?_
    have room := fits.room
    have length : (asyncText true).length = 6 := rfl
    simp only [List.length_append, length] at room
    have next := opens [' '] Blank.space
    obtain ⟨scan, reads, tree⟩ := run total notes [' '] depth (by
      refine fits.shorter Blank.space ?_ ?_ <;>
        simp only [List.length_append, List.length_cons, List.length_nil, length] <;> omega)
    refine ⟨scan, ?_, tree⟩
    have h := word gap fits.blank
    unfold readWord
    rw [run_bind_of (run_current _), run_bind_of (h.following fits.room), if_neg (by decide),
      if_neg (by decide), if_neg (by decide)]
    rw [show ' ' :: (functionText isGenerator name params body ++ rest) =
      [' '] ++ (functionText isGenerator name params body ++ rest) from rfl,
      next.token (by simp only [List.length_append, List.length_cons, List.length_nil]; omega),
      if_pos (by simp [Token.isWord])]
    unfold readFunctionExpression
    rw [run_bind_of (run_current _), if_pos rfl, run_bind_of (h.takeKeyword fits.room rfl)]
    dsimp only
    rw [show ' ' :: (functionText isGenerator name params body ++ rest) =
      [' '] ++ (functionText isGenerator name params body ++ rest) from rfl, run_bind_of reads,
      h.token fits.room]

theorem leadsWhole_function (ctx : Context) :
    LeadsWhole ctx (asyncText isAsync ++ (functionText isGenerator name params body ++ rest)) := by
  obtain ⟨after, opens⟩ := opens_functionText isGenerator name params body rest
  cases isAsync with
  | false =>
    exact leadsWhole_of_opens opens nofun fun t kind => by simp [Token.isWord, kind]
  | true =>
    intro total notes gap depth fits
    have word := opens_asyncText (functionText isGenerator name params body ++ rest) gap fits.blank
    have room := fits.room
    simp only [asyncText_append, List.length_append, List.length_cons] at room
    have next := (opens [' '] Blank.space).token (show _ ≤ total by
      simp only [List.length_append, List.length_cons, List.length_nil]
      omega) notes
    refine ⟨by rw [word.token fits.room]; rfl, ?_⟩
    unfold readLeadingArrow?
    rw [run_bind_of (run_current _), run_bind_of (word.following fits.room),
      show ' ' :: (functionText isGenerator name params body ++ rest) =
      [' '] ++ (functionText isGenerator name params body ++ rest) from rfl, next,
      word.token fits.room]
    rfl

end

/-! ## Arrows -/

/-- Whether what follows an opening parenthesis may be the parameters of an arrow. -/
def SignsArrow (text : List Char) : Prop :=
  ∀ total, text.length ≤ total → ∀ t : Token, t.stop = .before total text → arrowSign t ≠ .absent

/-- Whether a text does not start with an opening brace. -/
def NoBrace (text : List Char) : Prop :=
  ∀ total gap, Blank gap → (gap ++ text).length ≤ total →
    (scanToken (.before total (gap ++ text))).isPunctuator "\x7b" = false

/-- Whether a piece is read back as the body of an arrow. -/
def ReadsArrowBody (ctx : Context) (isAsync : Bool) (piece : List Char) (body : Body)
    (rest : List Char) : Prop :=
  ∀ total notes gap depth params, Fits total gap (piece ++ rest) 8 depth →
    (∃ scan, readArrowBody (grammar depth) ctx isAsync params
        (facing total notes (gap ++ (piece ++ rest))) = some (scan, facing total notes rest) ∧
      scan.function =
        ⟨0, ⟨none, true, isAsync, false, params.texts, boundNames params.mentions⟩, body⟩) ∧
      ((facing total notes (gap ++ (piece ++ rest))).token.kind != .ended &&
        (facing total notes (gap ++ (piece ++ rest))).token.kind != .invalid) = true

section

variable {ctx : Context} {isAsync : Bool} {piece rest : List Char}

/-- A block. -/
theorem readsArrowBody_block {trees : List Statement}
    (body : ReadsBody (.function isAsync false) ('\x7b' :: piece) trees rest) :
    ReadsArrowBody ctx isAsync ('\x7b' :: piece) (.block trees) rest := by
  intro total notes gap depth params fits
  obtain ⟨clauses, reads, rfl⟩ := body total notes gap depth fits
  have brace := (opens_closed "\x7b" '\x7b' (by decide) (by decide) (piece ++ rest) gap
    fits.blank).token fits.room notes
  rw [← List.cons_append] at brace
  refine ⟨⟨.ofBlock none true isAsync false params clauses, ?_, rfl⟩, by rw [brace]; rfl⟩
  unfold readArrowBody
  rw [run_bind_of (run_at? _ _), brace, if_pos (by rfl), run_bind_of reads]
  rfl

/-- An expression alone. -/
theorem readsArrowBody_concise {tree : Expression}
    (value : ReadsWhole { ctx with yields := false, awaits := isAsync } piece tree rest)
    (noBrace : NoBrace (piece ++ rest)) :
    ReadsArrowBody ctx isAsync piece (.expression tree) rest := by
  intro total notes gap depth params fits
  obtain ⟨p, reads, phrase⟩ := value total notes gap depth fits
  have other : (facing total notes (gap ++ (piece ++ rest))).token.isPunctuator "\x7b" = false :=
    noBrace total gap fits.blank fits.room
  refine ⟨⟨.ofConcise isAsync params p, ?_, by rw [← phrase.same]; rfl⟩, ?_⟩
  · unfold readArrowBody
    rw [run_bind_of (run_at? _ _), other, if_neg (by decide), run_bind_of reads]
    rfl
  · have opens : opensNothing (facing total notes (gap ++ (piece ++ rest))).token.kind = false := by
      by_contra closed
      rw [grammar_assignment_of_opensNothing (Bool.not_eq_false _ ▸ closed)] at reads
      cases reads
    cases kind : (facing total notes (gap ++ (piece ++ rest))).token.kind <;>
      simp [kind, opensNothing] at opens <;> rfl

end

/-- The text of an arrow from its parameters on. -/
def arrowText (params body : List Char) : List Char :=
  '(' :: (params ++ ' ' :: ("=>".toList ++ ' ' :: body))

theorem arrowText_append (params body rest : List Char) :
    arrowText params body ++ rest =
      '(' :: (params ++ ' ' :: ("=>".toList ++ ' ' :: (body ++ rest))) := by
  unfold arrowText
  generalize "=>".toList = mark
  simp only [List.append_assoc, List.cons_append]

section

variable {ctx : Context} {isAsync : Bool} {params body rest : List Char}
  {texts names : List String} {tree : Body}

/-- Parameters and the mark of an arrow behind them. -/
theorem readParameters_expectArrow {pctx : Context}
    (readsParams : ReadsParameters pctx ('(' :: params) texts names
      (' ' :: ("=>".toList ++ ' ' :: (body ++ rest))))
    {total : Nat} (notes : Notes) {gap : List Char} {depth : Nat}
    (fits : Fits total gap (arrowText params body ++ rest) 7 depth) :
    ∃ ps, (do
        let params ← readParameters (grammar depth) pctx
        expectArrow
        return params : Reader Parameters)
        (facing total notes (gap ++ (arrowText params body ++ rest))) =
        some (ps, facing total notes (' ' :: (body ++ rest))) ∧
      ps.texts = texts ∧ boundNames ps.mentions = names := by
  rw [arrowText_append] at fits ⊢
  obtain ⟨ps, reads, eq⟩ := readsParams total notes gap depth fits
  refine ⟨ps, ?_, eq⟩
  have room := fits.room
  simp only [List.length_append, List.length_cons] at room
  have known : "=>" ∈ punctuators := by decide
  have mark : Shows (' ' :: ("=>".toList ++ ' ' :: (body ++ rest))) _ _ _ _ :=
    (markAt_blank known (body ++ rest)).shows Blank.space
  have room' : (' ' :: ("=>".toList ++ ' ' :: (body ++ rest))).length ≤ total := by
    simp only [List.length_append, List.length_cons]
    omega
  have arrow : expectArrow (facing total notes (' ' :: ("=>".toList ++ ' ' :: (body ++ rest)))) =
      some ((), facing total notes (' ' :: (body ++ rest))) := by
    unfold expectArrow
    rw [run_bind_of (run_current _), mark.token room', if_neg (by simp)]
    exact mark.expect room' rfl
  rw [← List.cons_append, run_bind_of reads, run_bind_of arrow]
  rfl

theorem readArrowHead_facing
    (readsParams : ReadsParameters { ctx with awaits := ctx.awaits || isAsync } ('(' :: params)
      texts names (' ' :: ("=>".toList ++ ' ' :: (body ++ rest))))
    {total : Nat} (notes : Notes) {gap : List Char} {depth : Nat}
    (fits : Fits total gap (asyncText isAsync ++ (arrowText params body ++ rest)) 7 depth) :
    ∃ ps, readArrowHead (grammar depth) ctx isAsync
        (facing total notes (gap ++ (asyncText isAsync ++ (arrowText params body ++ rest)))) =
        some (ps, facing total notes (' ' :: (body ++ rest))) ∧
      ps.texts = texts ∧ boundNames ps.mentions = names := by
  cases isAsync with
  | false => exact readParameters_expectArrow readsParams notes fits
  | true =>
    have word := opens_asyncText (arrowText params body ++ rest) gap fits.blank
    have inner : Fits total [' '] (arrowText params body ++ rest) 7 depth := by
      refine fits.shorter Blank.space ?_ ?_ <;>
        simp only [asyncText_append, List.length_append, List.length_cons, List.length_nil] <;>
        omega
    obtain ⟨ps, reads, eq⟩ := readParameters_expectArrow readsParams notes inner
    refine ⟨ps, ?_, eq⟩
    unfold readArrowHead
    rw [if_pos rfl, run_bind_of (word.takeKeyword fits.room rfl)]
    exact reads

/-- The parenthesis of an arrow, from the token that the arrow starts with. -/
theorem readLeadingArrow?_facing (ctx : Context) {total : Nat} (notes : Notes) {gap : List Char}
    {depth : Nat}
    (fits : Fits total gap (asyncText isAsync ++ (arrowText params body ++ rest)) 7 depth) :
    (facing total notes
        (gap ++ (asyncText isAsync ++ (arrowText params body ++ rest)))).token.isWord "yield" =
          false ∧
      (facing total notes
        (gap ++ (asyncText isAsync ++ (arrowText params body ++ rest)))).token.start =
          .before total (asyncText isAsync ++ (arrowText params body ++ rest)) ∧
      ∃ t : Token,
        t.stop = .before total (params ++ ' ' :: ("=>".toList ++ ' ' :: (body ++ rest))) ∧
        readLeadingArrow? (grammar depth) ctx
          (facing total notes (gap ++ (asyncText isAsync ++ (arrowText params body ++ rest)))) =
        readArrow? (grammar depth) ctx isAsync t
          (facing total notes (gap ++ (asyncText isAsync ++ (arrowText params body ++ rest)))) := by
  have room := fits.room
  have opening : Opens (arrowText params body ++ rest) (.punctuator "(")
      (params ++ ' ' :: ("=>".toList ++ ' ' :: (body ++ rest))) := by
    rw [arrowText_append]
    exact opens_closed "(" '(' (by decide) (by decide) _
  cases isAsync with
  | false =>
    have token := (opening gap fits.blank).token fits.room notes
    rw [show asyncText false ++ (arrowText params body ++ rest) = arrowText params body ++ rest
      from rfl]
    refine ⟨by rw [token]; rfl, by rw [token], _, congrArg Token.stop token, ?_⟩
    unfold readLeadingArrow?
    rw [run_bind_of (run_current _), run_bind_of (run_following _), if_pos (by rw [token]; rfl)]
  | true =>
    have word := opens_asyncText (arrowText params body ++ rest) gap fits.blank
    simp only [asyncText_append, List.length_append, List.length_cons] at room
    have token := (opening [' '] Blank.space).token (show _ ≤ total by
      simp only [List.length_append, List.length_cons, List.length_nil]
      omega) notes
    refine ⟨by rw [word.token fits.room]; rfl, by rw [word.token fits.room], _,
      congrArg Token.stop token, ?_⟩
    unfold readLeadingArrow?
    rw [run_bind_of (run_current _), run_bind_of (word.following fits.room),
      show ' ' :: (arrowText params body ++ rest) = [' '] ++ (arrowText params body ++ rest)
        from rfl,
      if_neg (by rw [word.token fits.room]; exact Bool.false_ne_true),
      if_pos (by rw [word.token fits.room, token]; rfl), if_pos (by rw [token]; rfl)]

/-- An arrow. -/
theorem readsWhole_arrow
    (readsParams : ReadsParameters { ctx with awaits := ctx.awaits || isAsync } ('(' :: params)
      texts names (' ' :: ("=>".toList ++ ' ' :: (body ++ rest))))
    (signs : SignsArrow (params ++ ' ' :: ("=>".toList ++ ' ' :: (body ++ rest))))
    (readsBody : ReadsArrowBody ctx isAsync body tree rest) :
    ReadsWhole ctx (asyncText isAsync ++ arrowText params body)
      (.function ⟨0, ⟨none, true, isAsync, false, texts, names⟩, tree⟩) rest := by
  intro total notes gap depth enough
  rw [List.append_assoc] at enough ⊢
  obtain ⟨depth, rfl, fits⟩ := enough.exists_depth
  have room := fits.room
  rw [arrowText_append] at room
  simp only [List.length_append, List.length_cons] at room
  obtain ⟨noYield, start, t, stop, leading⟩ := readLeadingArrow?_facing ctx notes fits
  obtain ⟨ps, head, rfl, rfl⟩ := readArrowHead_facing readsParams notes fits
  obtain ⟨⟨scan, reads, tree_⟩, begins⟩ := readsBody total notes [' '] depth ps (by
    refine fits.shorter Blank.space ?_ ?_ <;> rw [arrowText_append] <;>
      simp only [List.length_append, List.length_cons, List.length_nil] <;> omega)
  have sign := signs total (by simp only [List.length_append, List.length_cons]; omega) t stop
  rw [show [' '] ++ (body ++ rest) = ' ' :: (body ++ rest) from rfl] at reads begins
  have arrow : readArrow? (grammar depth) ctx isAsync t
      (facing total notes (gap ++ (asyncText isAsync ++ (arrowText params body ++ rest)))) =
      some (some ⟨.function scan.function, scan.mentions,
        .before total (asyncText isAsync ++ (arrowText params body ++ rest)), total - rest.length,
        .other, none, 0⟩, facing total notes rest) := by
    unfold readArrow?
    rw [run_bind_of (run_current _), start]
    -- where an arrow is only possible, a trial reads its head, and does so to the end
    cases found : arrowSign t with
    | absent => exact absurd found sign
    | certain =>
      dsimp only
      rw [run_bind_of head, run_bind_of reads]
      rfl
    | possible =>
      have trial : readArrowTrial (grammar depth) ctx isAsync
          (facing total notes (gap ++ (asyncText isAsync ++ (arrowText params body ++ rest)))) =
          some (ps, facing total notes (' ' :: (body ++ rest))) := by
        unfold readArrowTrial
        rw [run_bind_of head, run_bind_of (run_current _), run_bind, run_require, begins]
        rfl
      dsimp only
      rw [run_bind, run_attempt, trial]
      dsimp only [Option.bind_some]
      rw [run_bind_of reads]
      rfl
  refine ⟨⟨.function scan.function, scan.mentions,
    .before total (asyncText isAsync ++ (arrowText params body ++ rest)), total - rest.length,
    .other, none, 0⟩, ?_,
    .of_other (by rw [tree_]) (by rw [List.append_assoc]) nofun nofun (.inl rfl)⟩
  rw [grammar_assignment]
  unfold readAssignment
  rw [run_bind_of (run_current _), run_bind_of (run_following _),
    if_neg (by rw [noYield]; exact Bool.false_ne_true), run_bind_of (leading.trans arrow)]
  rfl

end

end ReactiveMarkup.Script
