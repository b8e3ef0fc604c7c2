import ReactiveMarkup.Proofs.ReadBackStatement

/-!
# Reading back declarations of variables

A declaration is read back when its patterns and its initial values are. What follows `let` must
show that it is a keyword.
-/

namespace ReactiveMarkup.Script

open Reader

/-! ## Patterns and bindings -/

/-- Whether a piece is read back as a declared pattern. -/
def ReadsBinding (ctx : Context) (piece : List Char) (pattern : Pattern) (rest : List Char) :
    Prop :=
  ∀ total notes gap depth, Fits total gap (piece ++ rest) 8 depth →
    ∃ b, (grammar depth).binding ctx (facing total notes (gap ++ (piece ++ rest))) =
        some (b, facing total notes rest) ∧ b.pattern = pattern

/-- Whether a piece is read back as a binding with its initial value, if it has one. -/
def ReadsDeclarator (ctx : Context) (piece : List Char) (tree : Declarator) (rest : List Char) :
    Prop :=
  ∀ total notes gap depth, Fits total gap (piece ++ rest) 8 depth →
    ∃ scan, readDeclarator (grammar depth) ctx (facing total notes (gap ++ (piece ++ rest))) =
        some (scan, facing total notes rest) ∧ scan.tree = tree

section

variable {ctx : Context} {piece rest : List Char} {pattern : Pattern}

theorem binding_name {name : String} (bindable : isBindable ctx name = true)
    (ends : endsName rest = true) {total : Nat} (notes : Notes) {gap : List Char} {depth : Nat}
    (enough : Fits total gap (name.toList ++ rest) 8 depth) :
    (grammar depth).binding ctx (facing total notes (gap ++ (name.toList ++ rest))) =
      some (⟨.identifier name, [.bind name], [name]⟩, facing total notes rest) := by
  obtain ⟨depth, rfl, fits⟩ := enough.exists_depth
  have word : Shows (gap ++ (name.toList ++ rest)) _ _ _ _ :=
    shows_word (isSpelled_of_isBindable bindable) ends fits.blank
  have noMark : ∀ mark,
      (facing total notes (gap ++ (name.toList ++ rest))).token.isPunctuator mark = false := by
    intro mark
    rw [word.token fits.room]
    rfl
  rw [grammar_binding]
  unfold readBinding
  rw [run_bind_of (run_current _), run_bind_of (run_accept_of_not (noMark "[")), if_neg (by decide),
    run_bind_of (run_accept_of_not (noMark "\x7b")), if_neg (by decide),
    run_bind_of (takeName_facing word fits.room fun _ kind =>
      isNameToken_of_isBindable bindable kind)]
  rfl

theorem readsBinding_name {name : String} (bindable : isBindable ctx name = true)
    (ends : endsName rest = true) : ReadsBinding ctx name.toList (.identifier name) rest :=
  fun _ notes _ _ fits => ⟨_, binding_name bindable ends notes fits, rfl⟩

/-- A binding without an initial value. -/
theorem readsDeclarator_bare (binding : ReadsBinding ctx piece pattern rest)
    (ends : endsWhole rest = true) : ReadsDeclarator ctx piece ⟨pattern, none⟩ rest := by
  intro total notes gap depth fits
  obtain ⟨b, reads, rfl⟩ := binding total notes gap depth fits
  have room := fits.room
  simp only [List.length_append] at room
  have other : (facing total notes rest).token.isPunctuator "=" = false := by
    obtain ⟨mark, known, follows⟩ := follows_of_endsWhole ends
    rw [Token.isPunctuator, (follows.token (by omega) notes).1]
    refine beq_eq_false_iff_ne.2 fun eq => ?_
    rw [TokenKind.punctuator.inj eq] at known
    simp [wholeEnds] at known
  refine ⟨⟨⟨b.pattern, none⟩, b.mentions, b.names⟩, ?_, rfl⟩
  unfold readDeclarator
  rw [run_bind_of reads, run_bind_of (run_accept_of_not other)]
  rfl

/-- A binding with its initial value. -/
theorem readsDeclarator_init {piece' : List Char} {tree : Expression}
    (binding : ReadsBinding ctx piece pattern (' ' :: ("=".toList ++ ' ' :: (piece' ++ rest))))
    (init : ReadsWhole ctx piece' tree rest) :
    ReadsDeclarator ctx (piece ++ ' ' :: ("=".toList ++ ' ' :: piece')) ⟨pattern, some tree⟩
      rest := by
  have text : piece ++ ' ' :: ("=".toList ++ ' ' :: piece') ++ rest =
      piece ++ ' ' :: ("=".toList ++ ' ' :: (piece' ++ rest)) := by
    simp
  intro total notes gap depth fits
  rw [text] at fits ⊢
  have room := fits.room
  simp only [List.length_append, List.length_cons] at room
  obtain ⟨b, reads, rfl⟩ := binding total notes gap depth fits
  obtain ⟨p, reads', phrase⟩ := init total notes [' '] depth (by
    refine fits.shorter Blank.space ?_ ?_ <;>
      simp only [List.length_append, List.length_cons, List.length_nil] <;> omega)
  have known : "=" ∈ punctuators := by decide
  have mark : Shows (' ' :: ("=".toList ++ ' ' :: (piece' ++ rest))) _ _ _ _ :=
    (markAt_blank known (piece' ++ rest)).shows Blank.space
  refine ⟨⟨⟨b.pattern, some p.tree⟩, b.mentions ++ p.mentions, b.names⟩, ?_, by rw [phrase.same]⟩
  unfold readDeclarator
  rw [run_bind_of reads, run_bind_of (mark.accept (by
    simp only [List.length_append, List.length_cons]; omega) rfl), if_pos rfl,
    show ' ' :: (piece' ++ rest) = [' '] ++ (piece' ++ rest) from rfl, run_bind_of reads']
  rfl

end

/-! ## Lists of bindings -/

/-- Whether some bindings, each behind a comma, are read back. -/
def ReadsDeclaratorTails (ctx : Context) (tails : List Char) (trees : List Declarator)
    (rest : List Char) : Prop :=
  ∀ total notes depth fuel, Fits total [] (tails ++ rest) 7 depth → tails.length + 1 ≤ fuel →
    ∃ items, collect (declaratorItem (grammar depth) ctx) fuel
        (facing total notes (tails ++ rest)) = some (items, facing total notes rest) ∧
      items.map DeclaratorScan.tree = trees

section

variable {ctx : Context} {piece rest : List Char}

theorem readsDeclaratorTails_nil (ends : endsSequence rest = true) :
    ReadsDeclaratorTails ctx [] [] rest := by
  intro total notes depth fuel fits enough
  obtain ⟨fuel, rfl⟩ : ∃ f, fuel = f + 1 := ⟨fuel - 1, by omega⟩
  have item : declaratorItem (grammar depth) ctx (facing total notes rest) =
      some (none, facing total notes rest) := by
    unfold declaratorItem
    rw [run_bind_of (run_accept_of_not (not_comma_of_endsSequence ends fits.room notes))]
    rfl
  refine ⟨[], ?_, rfl⟩
  rw [List.nil_append, collect, run_bind_of item]
  rfl

theorem readsDeclaratorTails_cons {tree : Declarator} {tails : List Char} {trees : List Declarator}
    (first : ReadsDeclarator ctx piece tree (tails ++ rest))
    (more : ReadsDeclaratorTails ctx tails trees rest) :
    ReadsDeclaratorTails ctx (',' :: ' ' :: (piece ++ tails)) (tree :: trees) rest := by
  have text : ',' :: ' ' :: (piece ++ tails) ++ rest =
      ',' :: ([' '] ++ (piece ++ (tails ++ rest))) := by
    simp
  intro total notes depth fuel fits enough
  rw [text] at fits ⊢
  have room := fits.room
  simp only [List.length_append, List.length_cons, List.length_nil] at room enough
  obtain ⟨fuel, rfl⟩ : ∃ f, fuel = f + 1 := ⟨fuel - 1, by omega⟩
  obtain ⟨scan, reads, rfl⟩ := first total notes [' '] depth (by
    refine fits.shorter Blank.space ?_ ?_ <;>
      simp only [List.length_append, List.length_cons, List.length_nil] <;> omega)
  obtain ⟨items, collected, rfl⟩ := more total notes depth fuel (by
    refine fits.shorter Blank.nil ?_ ?_ <;>
      simp only [List.length_append, List.length_cons, List.length_nil] <;> omega) (by omega)
  have comma : Shows (',' :: ([' '] ++ (piece ++ (tails ++ rest)))) _ _ _ _ :=
    shows_next "," ',' (by decide) (by decide) _
  have item : declaratorItem (grammar depth) ctx
      (facing total notes (',' :: ([' '] ++ (piece ++ (tails ++ rest))))) =
      some (some scan, facing total notes (tails ++ rest)) := by
    unfold declaratorItem
    rw [run_bind_of (comma.accept (by simp; omega) rfl), if_pos rfl, run_bind_of reads]
    rfl
  refine ⟨scan :: items, ?_, rfl⟩
  rw [collect, run_bind_of item]
  dsimp only
  rw [run_bind_of collected]
  rfl

end

/-! ## Declarations -/

/-- Whether a binding is complete in a declaration of some kind. -/
def Declarator.isComplete (kind : DeclarationKind) (d : Declarator) : Bool :=
  DeclaratorScan.isComplete (kind == .constant) ⟨d, [], []⟩

/-- Whether a token can start a declared pattern. -/
def startsPattern : TokenKind → Bool
  | .word text _ => !isReserved text
  | .punctuator mark => mark == "[" || mark == "\x7b"
  | _ => false

theorem startsPattern_of_binding {ctx : Context} {s : ReaderState} {depth : Nat}
    {r : Binding × ReaderState} (bound : (grammar depth).binding ctx s = some r) :
    startsPattern s.token.kind = true := by
  cases depth with
  | zero => cases bound
  | succ depth =>
    rw [grammar_binding] at bound
    unfold readBinding at bound
    rw [run_bind_of (run_current _)] at bound
    by_cases array : s.token.isPunctuator "[" = true
    · rw [eq_of_beq array]
      rfl
    by_cases object : s.token.isPunctuator "\x7b" = true
    · rw [eq_of_beq object]
      rfl
    rw [run_bind_of (run_accept_of_not (Bool.not_eq_true _ ▸ array)), if_neg (by decide),
      run_bind_of (run_accept_of_not (Bool.not_eq_true _ ▸ object)), if_neg (by decide)] at bound
    obtain ⟨name, s₁, taken, -⟩ := bind_eq_some_iff.1 bound
    obtain ⟨⟨escaped, kind⟩, isName, -⟩ := exists_of_takeName taken
    simp only [isNameToken, kind, Bool.and_eq_true] at isName
    rw [kind]
    exact isName.1.1

theorem letRole_of_startsPattern {t : Token} (starts : startsPattern t.kind = true) :
    letRole false t = .keyword := by
  have noMark : ∀ mark, startsPattern (.punctuator mark) = false →
      t.isPunctuator mark = false := by
    intro mark other
    refine beq_eq_false_iff_ne.2 fun kind => ?_
    rw [kind, other] at starts
    cases starts
  have noOperand : takesOperand t = false := by
    cases kind : t.kind with
    | word text escaped =>
      have free : isReserved text = false := by simpa [kind, startsPattern] using starts
      have ne : ∀ w, isReserved w = true → text ≠ w := by
        rintro w reserved rfl
        rw [reserved] at free
        cases free
      simp [takesOperand, assignmentMark?, operator?, kind, ne "instanceof" (by decide),
        ne "in" (by decide)]
    | punctuator mark =>
      have known : mark = "[" ∨ mark = "\x7b" := by simpa [kind, startsPattern] using starts
      rcases known with rfl | rfl <;>
        simp [takesOperand, assignmentMark?, assignmentMarks, operator?, kind, markLevel]
    | _ => simp [kind, startsPattern] at starts
  simp [letRole, noOperand, noMark "." rfl, noMark "(" rfl, noMark "?." rfl, noMark ";" rfl]

section

variable {ctx : Context} {isSingle isFirst : Bool} {piece tails rest : List Char}
  {kind : DeclarationKind} {tree : Declarator} {trees : List Declarator}

theorem readVariables_facing (first : ReadsDeclarator ctx piece tree (tails ++ ';' :: rest))
    (more : ReadsDeclaratorTails ctx tails trees (';' :: rest))
    (complete : (tree :: trees).all (Declarator.isComplete kind) = true) {total : Nat}
    (notes : Notes) {gap : List Char} {depth : Nat} {word : String} {start : List Char}
    {newLine : Bool}
    (h : Shows (gap ++ start) (.word word false) start ([' '] ++ (piece ++ (tails ++ ';' :: rest)))
      newLine)
    (room : (gap ++ start).length ≤ total)
    (fits : Fits total [' '] (piece ++ (tails ++ ';' :: rest)) 8 depth) :
    ∃ mentions, readVariables (grammar depth) ctx kind (facing total notes (gap ++ start)) =
      some (⟨.declaration kind (tree :: trees), mentions, false, []⟩, facing total notes rest) := by
  obtain ⟨scan, reads, rfl⟩ := first total notes [' '] depth fits
  have narrow := fits.room
  have fuel := fits.fuel
  simp only [List.length_append, List.length_cons, List.length_nil] at narrow fuel
  obtain ⟨items, collected, rfl⟩ := more total notes depth (grammar depth).limit (by
    refine fits.shorter Blank.nil ?_ ?_ <;> simp <;> omega) (by
    rw [grammar_limit]
    omega)
  have declared : readDeclarators (grammar depth) ctx
      (facing total notes ([' '] ++ (piece ++ (tails ++ ';' :: rest)))) =
      some (scan :: items, facing total notes (';' :: rest)) := by
    unfold readDeclarators
    rw [run_bind_of reads, run_bind_of collected]
    rfl
  have complete : (scan :: items).all (DeclaratorScan.isComplete (kind == .constant)) = true := by
    rw [← List.map_cons, List.all_map] at complete
    exact complete
  refine ⟨(scan :: items).flatMap DeclaratorScan.mentions, ?_⟩
  unfold readVariables readVariableItems
  simp only [bind_assoc]
  rw [run_bind_of (h.takeKeyword room rfl), run_bind_of declared, complete,
    run_bind_of (show require true _ = some ((), _) from rfl),
    run_bind_of (semicolon_facing (by simp only [List.length_cons]; omega) notes)]
  rfl

theorem declaration?_of_kind {g : Grammar} {t next : Token}
    (isKeyword : t.kind = .word kind.keyword false) (starts : startsPattern next.kind = true)
    (alone : isSingle = true → kind = .var) :
    ∃ reader, declaration? g ctx isSingle t next = some reader ∧
      ∀ s, reader s = readVariables g ctx kind s := by
  have notAlone : kind ≠ .var → isSingle = false := by
    intro other
    cases isSingle with
    | false => rfl
    | true => exact absurd (alone rfl) other
  have isKind : declarationKind? t = some kind := by
    unfold declarationKind? Token.isWord
    rw [isKeyword]
    cases kind <;> rfl
  unfold declaration?
  rw [isKind]
  cases kind with
  | var => exact ⟨_, rfl, fun _ => rfl⟩
  | constant =>
    rw [notAlone (by decide)]
    exact ⟨_, rfl, fun _ => rfl⟩
  | lexical =>
    have plain : t.isEscaped = false := by
      rw [Token.isEscaped, isKeyword]
    rw [notAlone (by decide), plain]
    refine ⟨_, rfl, fun s => ?_⟩
    unfold readLet
    rw [letRole_of_startsPattern starts]
    rfl

/-- A declaration of variables. -/
theorem readsStatement_declaration
    (first : ReadsDeclarator ctx piece tree (tails ++ ';' :: rest))
    (more : ReadsDeclaratorTails ctx tails trees (';' :: rest))
    (complete : (tree :: trees).all (Declarator.isComplete kind) = true)
    (alone : isSingle = true → kind = .var) :
    ReadsStatement ctx isSingle isFirst (kind.keyword.toList ++ ' ' :: (piece ++ (tails ++ [';'])))
      (.declaration kind (tree :: trees)) [] rest := by
  have text : ' ' :: (piece ++ (tails ++ [';'])) ++ rest =
      [' '] ++ (piece ++ (tails ++ ';' :: rest)) := by
    simp
  intro total notes gap depth enough
  rw [List.append_assoc, text] at enough ⊢
  obtain ⟨depth, rfl, fits⟩ := enough.exists_depth
  have room := fits.room
  simp only [List.length_append, List.length_cons, List.length_nil] at room
  have inner : Fits total [' '] (piece ++ (tails ++ ';' :: rest)) 8 depth := by
    refine fits.shorter Blank.space ?_ ?_ <;>
      simp only [List.length_append, List.length_cons, List.length_nil] <;> omega
  have spelled : isSpelled kind.keyword = true := by
    cases kind <;> decide
  have word : Shows (gap ++ (kind.keyword.toList ++ ([' '] ++ (piece ++ (tails ++ ';' :: rest)))))
      _ _ _ _ := shows_word spelled rfl fits.blank
  have token := word.token fits.room notes
  obtain ⟨mentions, reads⟩ := readVariables_facing first more complete notes word fits.room inner
  refine ⟨⟨.declaration kind (tree :: trees), mentions, false, []⟩, ?_, rfl, fun _ => rfl, rfl⟩
  have keyword : verbatimStatement? (grammar depth) ctx kind.keyword = none := by
    cases kind <;> rfl
  -- `let` is a keyword here because a pattern follows it
  have startsNext : startsPattern (scanToken (facing total notes (gap ++ (kind.keyword.toList ++
      ([' '] ++ (piece ++ (tails ++ ';' :: rest)))))).token.stop).kind = true := by
    rw [token]
    change startsPattern
      (facing total notes ([' '] ++ (piece ++ (tails ++ ';' :: rest)))).token.kind = true
    obtain ⟨scan, reads, -⟩ := first total notes [' '] depth inner
    obtain ⟨b, s₁, bound, -⟩ := bind_eq_some_iff.1 reads
    exact startsPattern_of_binding bound
  obtain ⟨reader, declared, same⟩ :=
    declaration?_of_kind (congrArg Token.kind token) startsNext alone
  rw [grammar_statement, readStatement_keyword (congrArg Token.kind token)]
  unfold readWordStatement
  rw [keyword, declared]
  dsimp only
  rw [same, reads]

end

end ReactiveMarkup.Script
