import ReactiveMarkup.Proofs.ReadingRuns

/-!
# Reading back chains of accesses and calls

What it means that a printed piece is read back as a tree before the text that follows it, first for
chains of accesses and calls. Each lemma is about one kind of tree: its parts are read back, so the
whole is.
-/

namespace ReactiveMarkup.Script

open Reader

/-- Whether a text behind some blanks fits into a script of `total` characters, and a grammar of
some depth suffices to read it. -/
structure Fits (total : Nat) (gap text : List Char) (slack depth : Nat) : Prop where
  blank : Blank gap
  room : (gap ++ text).length ≤ total
  fuel : 4 * (gap ++ text).length + slack ≤ depth

/-- A shorter text at the end of one that fits. -/
theorem Fits.shorter {total : Nat} {gap text : List Char} {slack depth : Nat}
    (fits : Fits total gap text slack depth) {gap' text' : List Char} {slack' depth' : Nat}
    (blank : Blank gap') (length : (gap' ++ text').length ≤ (gap ++ text).length)
    (fuel : 4 * (gap' ++ text').length + slack' + depth ≤
      4 * (gap ++ text).length + slack + depth') : Fits total gap' text' slack' depth' where
  blank := blank
  room := Nat.le_trans length fits.room
  fuel := by
    have := fits.fuel
    omega

theorem grammar_limit (depth : Nat) : (grammar depth).limit = depth - 1 := by
  cases depth <;> rfl

section

variable (depth : Nat) (ctx : Context)

theorem grammar_assignment :
    (grammar (depth + 1)).assignment ctx = readAssignment (grammar depth) ctx := rfl

theorem grammar_operation (level : Nat) :
    (grammar (depth + 1)).operation ctx level = readOperation (grammar depth) ctx level := rfl

theorem grammar_operand :
    (grammar (depth + 1)).operand ctx = readOperand (grammar depth) ctx := rfl

theorem grammar_binding :
    (grammar (depth + 1)).binding ctx = readBinding (grammar depth) ctx := rfl

theorem grammar_statement (isSingle : Bool) :
    (grammar (depth + 1)).statement ctx isSingle = readStatement (grammar depth) ctx isSingle := rfl

end

/-! ## Trees -/

/-- Whether a tree is kept as its text. -/
def Expression.isVerbatim : Expression → Bool
  | .verbatim _ _ => true
  | _ => false

/-- Whether a tree is `&&` or `||`. -/
def Expression.isLogical : Expression → Bool
  | .binary _ operator _ => operator == "&&" || operator == "||"
  | _ => false

/-- The target that a name or an access by name is when it is assigned to. -/
def Expression.asTarget? : Expression → Option Target
  | .identifier name => some (.identifier name)
  | .member object property _ => some (.member object property)
  | _ => none

/-- Whether a phrase is what a printed piece is to be read back as, before the text `rest`. -/
structure PhraseOf (total : Nat) (piece rest : List Char) (tree : Expression) (p : Phrase) :
    Prop where
  same : p.tree = tree
  start : p.start = .before total (piece ++ rest)
  place : ∀ target, tree.asTarget? = some target → p.place = some target
  name : ∀ name, tree = .identifier name → p.form = .name name
  logical : p.form = .logical → tree.isLogical = true
  string : p.form = .string → tree.isVerbatim = true
  unary : p.form = .unary → (scanToken (.before total rest)).isPunctuator "**" = false

/-- A phrase of no particular form. -/
theorem PhraseOf.of_other {total : Nat} {piece rest : List Char} {tree : Expression} {p : Phrase}
    (same : p.tree = tree) (start : p.start = .before total (piece ++ rest))
    (place : ∀ target, tree.asTarget? = some target → p.place = some target)
    (named : ∀ name, tree ≠ .identifier name) (form : p.form = .other ∨ p.form = .defaulted) :
    PhraseOf total piece rest tree p := by
  refine ⟨same, start, place, fun name eq => absurd eq (named name), ?_, ?_, ?_⟩ <;>
  rcases form with form | form <;> rw [form] <;> intro eq <;> cases eq

/-! ## Chains -/

/-- Whether the token that a text starts with opens an operand, and is not itself an operator. -/
def StartsOperand (ctx : Context) (text : List Char) : Prop :=
  ∀ total gap, Blank gap → (gap ++ text).length ≤ total →
    let t := scanToken (.before total (gap ++ text))
    t.isPrivateName = false ∧ updateMark? t = none ∧ isUnary t = false ∧
      (t.isWord "await" && (ctx.awaits || showsAwaited (scanToken t.stop))) = false

/-- Reads a chain of accesses and calls. -/
def readChain (g : Grammar) (ctx : Context) : Reader Chain := do
  readLinks g ctx true g.limit ⟨← readChainStart g ctx, false⟩

/-- Whether a piece is read back as a tree at the start of a chain. The chain may go on behind it.
-/
structure ReadsChain (ctx : Context) (piece : List Char) (tree : Expression) (rest : List Char) :
    Prop where
  starts : StartsOperand ctx (piece ++ rest)
  reads : ∀ total notes gap depth, Fits total gap (piece ++ rest) 7 depth →
    ∃ p fuel, (grammar depth).limit ≤ fuel + piece.length ∧
      readChain (grammar depth) ctx (facing total notes (gap ++ (piece ++ rest))) =
        readLinks (grammar depth) ctx true fuel ⟨p, false⟩ (facing total notes rest) ∧
      PhraseOf total piece rest tree p

/-- The words that are names, but keywords in some places where names stand. -/
def doubleWords : List String := ["let", "async", "await", "yield", "using"]

/-- Whether a word is a name wherever a name may stand, and nothing else. -/
def isPlainName (name : String) : Bool :=
  isSpelled name && !isReserved name && !doubleWords.contains name

section

variable {name : String} (plain : isPlainName name = true)
include plain

theorem isPlainName_spelled : isSpelled name = true := by
  simp only [isPlainName, Bool.and_eq_true] at plain
  exact plain.1.1

theorem isPlainName_ne_reserved {word : String} (reserved : isReserved word = true) :
    (name == word) = false := by
  refine beq_eq_false_iff_ne.2 ?_
  rintro rfl
  simp only [isPlainName, Bool.and_eq_true, Bool.not_eq_true', reserved] at plain
  cases plain.1.2

theorem isPlainName_ne_double {word : String} (double : doubleWords.contains word = true) :
    (name == word) = false := by
  refine beq_eq_false_iff_ne.2 ?_
  rintro rfl
  simp only [isPlainName, Bool.and_eq_true, Bool.not_eq_true', double] at plain
  cases plain.2

theorem isNameToken_of_plain {t : Token} (word : t.kind = .word name false) (ctx : Context) :
    isNameToken ctx t = true := by
  have awaited : (name == "await") = false := isPlainName_ne_double plain (by decide)
  have yields : (name == "yield") = false := isPlainName_ne_double plain (by decide)
  simp only [isPlainName, Bool.and_eq_true, Bool.not_eq_true'] at plain
  simp [isNameToken, word, plain.1.2, awaited, yields]

end

/-! ### Names -/

section

variable {total : Nat} {notes : Notes} {text start rest : List Char} {name : String}
  {newLine : Bool}

theorem takeName_facing {ctx : Context} (h : Shows text (.word name false) start rest newLine)
    (room : text.length ≤ total)
    (isName : ∀ t : Token, t.kind = .word name false → isNameToken ctx t = true) :
    takeName ctx (facing total notes text) = some (name, facing total notes rest) := by
  have isName := isName ⟨.word name false, .before total start, .before total rest, newLine⟩ rfl
  unfold takeName
  rw [run_bind_of (run_current _), h.token room]
  simp only [isName, run_bind, run_require, if_true, Option.bind_some, h.advance room,
    run_pure]

/-- A name that is taken is the word at hand. -/
theorem exists_of_takeName {ctx : Context} {s s' : ReaderState}
    (taken : takeName ctx s = some (name, s')) :
    (∃ escaped, s.token.kind = .word name escaped) ∧ isNameToken ctx s.token = true ∧
      advance s = some ((), s') := by
  unfold takeName at taken
  rw [run_bind_of (run_current _)] at taken
  cases kind : s.token.kind with
  | word text escaped =>
    simp only [kind] at taken
    obtain ⟨⟨⟩, s₁, required, taken⟩ := bind_eq_some_iff.1 taken
    rw [run_require] at required
    split at required
    · cases required
      obtain ⟨⟨⟩, s₂, advanced, taken⟩ := bind_eq_some_iff.1 taken
      cases taken
      exact ⟨⟨escaped, rfl⟩, by assumption, advanced⟩
    · cases required
  | _ => simp [kind] at taken; cases taken

/-- The phrase of a name that has been read. -/
def namedPhrase (total : Nat) (name : String) (start rest : List Char) : Phrase :=
  ⟨.identifier name, [.use name], .before total start, total - rest.length, .name name,
    some (.identifier name), 0⟩

theorem readWord_name {g : Grammar} {ctx : Context}
    (h : Shows text (.word name false) start rest newLine) (room : text.length ≤ total)
    (plain : isPlainName name = true) :
    readWord g ctx name (facing total notes text) =
      some (namedPhrase total name start rest, facing total notes rest) := by
  have other : ∀ word, isReserved word = true → (name == word) = false :=
    fun _ reserved => isPlainName_ne_reserved plain reserved
  have isAsync : (name == "async") = false := isPlainName_ne_double plain (by decide)
  have taken : takeName ctx (facing total notes text) = some (name, facing total notes rest) :=
    takeName_facing h room fun _ word => isNameToken_of_plain plain word ctx
  unfold readWord
  rw [run_bind_of (run_current _), run_bind_of (h.following room), h.token room]
  simp only [other "this" (by decide), other "null" (by decide), other "true" (by decide),
    other "false" (by decide), other "function" (by decide), other "class" (by decide), isAsync,
    Bool.or_false, Bool.false_and, Bool.false_eq_true, if_false]
  rw [run_bind_of taken]
  rfl

end

theorem readChainStart_of_punctuator {g : Grammar} {ctx : Context} {s : ReaderState} {mark : String}
    (kind : s.token.kind = .punctuator mark) : readChainStart g ctx s = readPrimary g ctx s := by
  unfold readChainStart
  rw [run_bind_of (run_current _)]
  simp only [Token.isWord_of_punctuator kind, Bool.false_eq_true, if_false]

theorem readPrimary_of_opening {g : Grammar} {ctx : Context} {s : ReaderState}
    (kind : s.token.kind = .punctuator "(") : readPrimary g ctx s = readParenthesized g ctx s := by
  unfold readPrimary
  rw [run_bind_of (run_current _)]
  simp only [kind]

/-- A name. -/
theorem readsChain_identifier {ctx : Context} {name : String} {rest : List Char}
    (plain : isPlainName name = true) (ends : endsName rest = true) :
    ReadsChain ctx name.toList (.identifier name) rest := by
  have spelled := isPlainName_spelled plain
  have other : ∀ word, isReserved word = true → (name == word) = false :=
    fun _ reserved => isPlainName_ne_reserved plain reserved
  constructor
  · intro total gap blank room
    have awaited : (name == "await") = false := isPlainName_ne_double plain (by decide)
    simp only [shows_word spelled ends blank total room]
    refine ⟨rfl, rfl, ?_, ?_⟩
    · simp only [isUnary, unaryWords, List.contains_cons, other "delete" (by decide),
        other "void" (by decide), other "typeof" (by decide), List.contains_nil, Bool.or_false]
    · simp only [Token.isWord, awaited, Bool.false_and]
  · intro total notes gap depth fits
    have h : Shows (gap ++ (name.toList ++ rest)) _ _ _ _ := shows_word spelled ends fits.blank
    refine ⟨namedPhrase total name (name.toList ++ rest) rest, (grammar depth).limit,
      Nat.le_add_right _ _, ?_, ?_⟩
    -- a plain name is none of the words that start a chain in a way of their own
    · have start : readChainStart (grammar depth) ctx
          (facing total notes (gap ++ (name.toList ++ rest))) =
          some (namedPhrase total name (name.toList ++ rest) rest, facing total notes rest) := by
        unfold readChainStart
        rw [run_bind_of (run_current _), h.token fits.room]
        simp only [Token.isWord, other "super" (by decide), other "import" (by decide),
          other "new" (by decide), Bool.false_eq_true, if_false]
        unfold readPrimary
        rw [run_bind_of (run_current _), h.token fits.room]
        exact readWord_name h fits.room plain
      unfold readChain
      rw [run_bind_of start]
    · refine ⟨rfl, rfl, by simp [Expression.asTarget?, namedPhrase], by simp [namedPhrase],
        ?_, ?_, ?_⟩ <;>
      intro form <;> cases form

/-! ### Links -/

/-- A piece that is longer by a link has fuel left for it. -/
theorem exists_fuel_of_fits {total : Nat} {gap piece rest : List Char} {depth fuel : Nat}
    (fits : Fits total gap (piece ++ rest) 7 depth)
    (enough : (grammar depth).limit ≤ fuel + piece.length) :
    ∃ more, fuel = more + 1 := by
  have := fits.fuel
  simp only [List.length_append] at this
  rw [grammar_limit] at enough
  exact ⟨fuel - 1, by omega⟩

section

variable {ctx : Context} {piece rest : List Char} {tree : Expression}

/-- An access by name. -/
theorem readsChain_member {property : String} (spelled : isSpelled property = true)
    (ends : endsName rest = true)
    (object : ReadsChain ctx piece tree ('.' :: (property.toList ++ rest))) :
    ReadsChain ctx (piece ++ '.' :: property.toList) (.member tree property false) rest := by
  have text : piece ++ '.' :: property.toList ++ rest =
      piece ++ '.' :: (property.toList ++ rest) := by
    simp
  refine ⟨text ▸ object.starts, fun total notes gap depth fits => ?_⟩
  rw [text] at fits ⊢
  obtain ⟨p, fuel, enough, reads, phrase⟩ := object.reads total notes gap depth fits
  obtain ⟨fuel, rfl⟩ := exists_fuel_of_fits fits enough
  have room := fits.room
  simp only [List.length_append, List.length_cons] at room
  have dot : Shows ('.' :: (property.toList ++ rest)) _ _ _ _ :=
    (markAt_dot spelled).shows Blank.nil
  have word : Shows (property.toList ++ rest) _ _ _ _ := shows_word spelled ends Blank.nil
  refine ⟨⟨.member p.tree property false, p.mentions, p.start, total - rest.length, .other,
    some (.member p.tree property), 0⟩, fuel, ?_, ?_, ?_⟩
  · simp only [List.length_append, List.length_cons]
    omega
  · rw [reads, readLinks, run_bind]
    -- the links of the object are read already, and this one uses up one more unit of fuel
    have link : readNextLink (grammar depth) ctx true ⟨p, false⟩
        (facing total notes ('.' :: (property.toList ++ rest))) =
        some (some ⟨⟨.member p.tree property false, p.mentions, p.start, total - rest.length,
          .other, some (.member p.tree property), 0⟩, false⟩, facing total notes rest) := by
      unfold readNextLink
      rw [run_bind_of (run_current _), dot.token (by simp; omega)]
      simp only [run_bind, dot.advance (show _ ≤ total by simp; omega), Option.bind_some,
        readNamedLink, run_current, word.token (show _ ≤ total by simp; omega),
        word.advance (show _ ≤ total by simp; omega)]
      rfl
    rw [link]
    rfl
  · refine .of_other (by rw [phrase.same]) (text ▸ phrase.start) ?_ nofun (.inl rfl)
    rw [← phrase.same]
    simp [Expression.asTarget?]

/-- Whether some arguments with the closing parenthesis behind them are read back as trees. -/
def ReadsArguments (ctx : Context) (piece : List Char) (trees : List Expression)
    (rest : List Char) : Prop :=
  ∀ total notes gap depth fuel, Fits total gap (piece ++ rest) 8 depth →
    piece.length + 2 ≤ fuel →
    ∃ items, collect (argumentItem (grammar depth) ctx) fuel
        (facing total notes (gap ++ (piece ++ rest))) = some (items, facing total notes rest) ∧
      items.map Phrase.tree = trees

/-- A call. -/
theorem readsChain_call {arguments : List Char} {trees : List Expression}
    (function : ReadsChain ctx piece tree ('(' :: (arguments ++ rest)))
    (items : ReadsArguments ctx.bracketed arguments trees rest) :
    ReadsChain ctx (piece ++ '(' :: arguments) (.call tree trees false) rest := by
  have text : piece ++ '(' :: arguments ++ rest = piece ++ '(' :: (arguments ++ rest) := by
    simp
  refine ⟨text ▸ function.starts, fun total notes gap depth fits => ?_⟩
  rw [text] at fits ⊢
  obtain ⟨p, fuel, enough, reads, phrase⟩ := function.reads total notes gap depth fits
  obtain ⟨fuel, rfl⟩ := exists_fuel_of_fits fits enough
  have room := fits.room
  have fuel_ := fits.fuel
  simp only [List.length_append, List.length_cons] at room fuel_
  have opening : Shows ('(' :: (arguments ++ rest)) _ _ _ _ :=
    shows_next "(" '(' (by decide) (by decide) _
  have inner : Fits total [] (arguments ++ rest) 8 depth := by
    refine fits.shorter Blank.nil ?_ ?_ <;> simp <;> omega
  obtain ⟨phrases, collected, rfl⟩ := items total notes [] depth (grammar depth).limit inner (by
    rw [grammar_limit]
    omega)
  refine ⟨⟨.call p.tree (phrases.map Phrase.tree) false,
    p.mentions ++ phrases.flatMap Phrase.mentions, p.start, total - rest.length, .other, none, 0⟩,
    fuel, ?_, ?_, ?_⟩
  · simp only [List.length_append, List.length_cons]
    omega
  · rw [reads, readLinks, run_bind]
    have link : readNextLink (grammar depth) ctx true ⟨p, false⟩
        (facing total notes ('(' :: (arguments ++ rest))) =
        some (some ⟨⟨.call p.tree (phrases.map Phrase.tree) false,
          p.mentions ++ phrases.flatMap Phrase.mentions, p.start, total - rest.length, .other, none,
          0⟩, false⟩, facing total notes rest) := by
      unfold readNextLink readArguments
      rw [run_bind_of (run_current _), opening.token (by simp; omega)]
      simp only [if_true, run_bind, opening.expect (show _ ≤ total by simp; omega) rfl,
        Option.bind_some]
      rw [show facing total notes (arguments ++ rest) =
        facing total notes ([] ++ (arguments ++ rest)) from rfl, collected]
      rfl
    rw [link]
    rfl
  · exact .of_other (by rw [phrase.same]) (text ▸ phrase.start) nofun nofun (.inl rfl)

/-! ### Parentheses -/

/-- Whether a piece is read back as a tree where an expression with commas may stand. -/
def ReadsSequence (ctx : Context) (piece : List Char) (tree : Expression) (rest : List Char) :
    Prop :=
  ∀ total notes gap depth, Fits total gap (piece ++ rest) 8 depth →
    ∃ p, (grammar depth).expression ctx (facing total notes (gap ++ (piece ++ rest))) =
        some (p, facing total notes rest) ∧
      PhraseOf total piece rest tree p

/-- An expression between parentheses. -/
theorem readsChain_parenthesized (inner : ReadsSequence ctx.bracketed piece tree (')' :: rest)) :
    ReadsChain ctx ('(' :: (piece ++ [')'])) (.parenthesized tree) rest := by
  have text : '(' :: (piece ++ [')']) ++ rest = '(' :: (piece ++ ')' :: rest) := by
    simp
  constructor
  · intro total gap blank room
    rw [text] at room ⊢
    simp only [shows_closed "(" '(' (by decide) (by decide) blank total room]
    exact ⟨rfl, rfl, rfl, rfl⟩
  · intro total notes gap depth fits
    rw [text] at fits ⊢
    have room := fits.room
    simp only [List.length_append, List.length_cons] at room
    have opening : Shows (gap ++ '(' :: (piece ++ ')' :: rest)) _ _ _ _ :=
      shows_closed "(" '(' (by decide) (by decide) fits.blank
    have closing : Shows (')' :: rest) _ _ _ _ :=
      shows_next ")" ')' (by decide) (by decide) _
    obtain ⟨p, reads, phrase⟩ := inner total notes [] depth (by
      refine fits.shorter Blank.nil ?_ ?_ <;> simp <;> omega)
    refine ⟨⟨.parenthesized p.tree, p.mentions, .before total ('(' :: (piece ++ ')' :: rest)),
      total - rest.length, .other, p.place, 0⟩, (grammar depth).limit, Nat.le_add_right _ _, ?_, ?_⟩
    · have start : readChainStart (grammar depth) ctx
          (facing total notes (gap ++ '(' :: (piece ++ ')' :: rest))) =
          some (⟨.parenthesized p.tree, p.mentions, .before total ('(' :: (piece ++ ')' :: rest)),
            total - rest.length, .other, p.place, 0⟩, facing total notes rest) := by
        have kind : (facing total notes (gap ++ '(' :: (piece ++ ')' :: rest))).token.kind =
            .punctuator "(" := by
          rw [opening.token fits.room]
        rw [readChainStart_of_punctuator kind, readPrimary_of_opening kind]
        unfold readParenthesized
        rw [run_bind_of (run_current _), opening.token fits.room,
          run_bind_of (opening.expect fits.room rfl)]
        rw [show facing total notes (piece ++ ')' :: rest) =
          facing total notes ([] ++ (piece ++ ')' :: rest)) from rfl, run_bind_of reads,
          run_bind_of (closing.expect (by simp; omega) rfl)]
        rfl
      unfold readChain
      rw [run_bind_of start]
    · exact .of_other (by rw [phrase.same]) (by rw [text]) nofun nofun (.inl rfl)

end

end ReactiveMarkup.Script
