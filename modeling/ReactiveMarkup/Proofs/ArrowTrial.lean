import ReactiveMarkup.Proofs.ReadBackWhole

/-!
# Parentheses that start no arrow

Where an expression starts with a parenthesis, the reader tries the parameters of an arrow first. It
may well succeed: `(a, b = 1)` is also a list of parameters. But then it ends at the closing
parenthesis, and as no arrow mark follows, the trial fails.
-/

namespace ReactiveMarkup.Script

open Reader

/-! ## One parameter -/

section

variable {g : Grammar} {ctx : Context} {s : ReaderState}

/-- A parameter that is read is a pattern, with a default value or without, before a comma or the
closing parenthesis. -/
theorem exists_of_parameterItem {r : Option ParameterScan} {s' : ReaderState}
    (item : parameterItem g ctx s = some (r, s'))
    (other : ∀ mark ∈ [")", "...", "@"], s.token.isPunctuator mark = false) :
    r.isSome = true ∧ ∃ part after, bindingItem g ctx s = some (part, after) ∧
      (after.token.isPunctuator ")" = true ∧ s' = after ∨
        expect "," after = some ((), s')) := by
  -- without `@` no decorator is read, so the binding starts where the item does
  have decorators : ∀ {fuel : Nat} {r : List (List Mention) × ReaderState},
      collect (decoratorItem g ctx) fuel s = some r → r.2 = s := by
    intro fuel r collected
    cases fuel with
    | zero => cases collected
    | succ fuel =>
      have none : decoratorItem g ctx s = some (none, s) := by
        unfold decoratorItem
        rw [run_bind_of (run_accept_of_not (other "@" (by simp)))]
        rfl
      rw [collect, run_bind_of none] at collected
      cases collected
      rfl
  unfold parameterItem at item
  rw [run_bind_of (run_current _), run_bind_of (run_accept_of_not (other ")" (by simp))),
    if_neg (by decide), run_bind_of (run_accept_of_not (other "..." (by simp))),
    if_neg (by decide)] at item
  obtain ⟨marks, s₁, collected, item⟩ := bind_eq_some_iff.1 item
  obtain rfl : s₁ = s := decorators collected
  obtain ⟨part, after, bound, item⟩ := bind_eq_some_iff.1 item
  rw [run_bind_of (run_lastStop _), run_bind_of (run_at? _ _)] at item
  cases closes : after.token.isPunctuator ")" with
  | true =>
    simp only [closes, if_true] at item
    cases item
    exact ⟨rfl, part, _, bound, .inl ⟨closes, rfl⟩⟩
  | false =>
    simp only [closes, Bool.false_eq_true, if_false] at item
    obtain ⟨⟨⟩, s₂, comma, item⟩ := bind_eq_some_iff.1 item
    cases item
    exact ⟨rfl, part, after, bound, .inr comma⟩

theorem binding_of_word {total : Nat} {notes : Notes} {text start rest : List Char} {word : String}
    {newLine : Bool} (h : Shows text (.word word false) start rest newLine)
    (room : text.length ≤ total) {depth : Nat} {b : Binding} {s' : ReaderState}
    (bound : (grammar depth).binding ctx (facing total notes text) = some (b, s')) :
    s' = facing total notes rest := by
  cases depth with
  | zero => cases bound
  | succ depth =>
    have noMark : ∀ mark, (facing total notes text).token.isPunctuator mark = false := by
      intro mark
      rw [h.token room]
      rfl
    rw [grammar_binding] at bound
    unfold readBinding takeName at bound
    rw [run_bind_of (run_current _), run_bind_of (run_accept_of_not (noMark "[")),
      if_neg (by decide), run_bind_of (run_accept_of_not (noMark "\x7b")), if_neg (by decide),
      bind_assoc, run_bind_of (run_current _), h.token room] at bound
    simp only [bind_assoc] at bound
    obtain ⟨⟨⟩, s₁, required, bound⟩ := bind_eq_some_iff.1 bound
    rw [run_require] at required
    split at required
    · cases required
      rw [run_bind_of (h.advance room)] at bound
      cases bound
      rfl
    · cases required

theorem binding_of_mark {mark : String} (kind : s.token.kind = .punctuator mark)
    (noArray : mark ≠ "[") (noObject : mark ≠ "\x7b") (depth : Nat) :
    (grammar depth).binding ctx s = none := by
  cases depth with
  | zero => rfl
  | succ depth =>
    have other : ∀ other, mark ≠ other → s.token.isPunctuator other = false := by
      intro other ne
      simpa [Token.isPunctuator, kind] using ne
    rw [grammar_binding]
    unfold readBinding takeName
    rw [run_bind_of (run_current _), run_bind_of (run_accept_of_not (other _ noArray)),
      if_neg (by decide), run_bind_of (run_accept_of_not (other _ noObject)), if_neg (by decide),
      bind_assoc, run_bind_of (run_current _)]
    simp only [kind]
    rfl

end

/-! ## Items that are read as parameters too -/

/-- Where the reader of parameters goes on behind an item. -/
def Resumes (total : Nat) (rest : List Char) (s : ReaderState) : Prop :=
  ∃ notes, rest.head? = some ')' ∧ s = facing total notes rest ∨
    ∃ more, rest = ',' :: more ∧ s = facing total notes more

/-- Whether a piece that is taken for a parameter ends where it ends as an item of a sequence. -/
def Wary (ctx : Context) (piece rest : List Char) : Prop :=
  ∀ total notes gap depth, Fits total gap (piece ++ rest) 8 depth →
    ∀ r s, parameterItem (grammar depth) ctx (facing total notes (gap ++ (piece ++ rest))) =
      some (r, s) → r.isSome = true ∧ Resumes total rest s

/-- Whether a text goes on with a comma or a closing parenthesis. -/
def endsItem (rest : List Char) : Prop := rest.head? = some ')' ∨ rest.head? = some ','

theorem resumes_of_endsItem {total : Nat} {rest : List Char} (ends : endsItem rest)
    (room : rest.length ≤ total) {notes : Notes} {s : ReaderState}
    (goes : (facing total notes rest).token.isPunctuator ")" = true ∧ s = facing total notes rest ∨
      expect "," (facing total notes rest) = some ((), s)) : Resumes total rest s := by
  cases rest with
  | nil => rcases ends with ends | ends <;> cases ends
  | cons c rest =>
    rcases ends with ends | ends <;> simp only [List.head?_cons, Option.some.injEq] at ends <;>
      subst ends
    · have h : Shows (')' :: rest) _ _ _ _ := shows_next ")" ')' (by decide) (by decide) _
      rcases goes with ⟨-, rfl⟩ | comma
      · exact ⟨notes, .inl ⟨rfl, rfl⟩⟩
      · rw [run_expect_of_not (by rw [h.token room]; rfl)] at comma
        cases comma
    · have h : Shows (',' :: rest) _ _ _ _ := shows_next "," ',' (by decide) (by decide) _
      rcases goes with ⟨closes, -⟩ | comma
      · rw [h.token room] at closes
        cases closes
      · rw [h.expect room rfl] at comma
        cases comma
        exact ⟨notes, .inr ⟨rest, rfl, rfl⟩⟩

section

variable {ctx : Context} {piece rest : List Char}

/-- What starts with a mark that starts no pattern. -/
theorem wary_of_mark {mark : String} {after : List Char}
    (opens : Opens (piece ++ rest) (.punctuator mark) after)
    (other : mark ∉ [")", "...", "@", "[", "\x7b"]) : Wary ctx piece rest := by
  intro total notes gap depth fits r s item
  have kind : (facing total notes (gap ++ (piece ++ rest))).token.kind = .punctuator mark := by
    rw [(opens gap fits.blank).token fits.room]
  simp only [List.mem_cons, List.not_mem_nil, or_false, not_or] at other
  obtain ⟨-, part, after, bound, -⟩ := exists_of_parameterItem item (by
    simp [Token.isPunctuator, kind, other])
  obtain ⟨b, s₁, bound, -⟩ := bind_eq_some_iff.1 bound
  rw [binding_of_mark kind other.2.2.2.1 other.2.2.2.2] at bound
  cases bound

/-- A word as a parameter, and what follows it. -/
theorem exists_of_word {word : String} {more : List Char} (spelled : isSpelled word = true)
    (ends : endsName more = true) {total : Nat} {notes : Notes} {gap : List Char} {depth : Nat}
    (blank : Blank gap) (room : (gap ++ (word.toList ++ more)).length ≤ total)
    {r : Option ParameterScan} {s : ReaderState}
    (item : parameterItem (grammar depth) ctx
      (facing total notes (gap ++ (word.toList ++ more))) = some (r, s)) :
    r.isSome = true ∧ ∃ value after,
      defaultValue (grammar depth) ctx (facing total notes more) = some (value, after) ∧
      (after.token.isPunctuator ")" = true ∧ s = after ∨ expect "," after = some ((), s)) := by
  have h : Shows (gap ++ (word.toList ++ more)) _ _ _ _ := shows_word spelled ends blank
  obtain ⟨isSome, part, after, bound, goes⟩ := exists_of_parameterItem item (by
    rw [h.token room]
    exact fun _ _ => rfl)
  obtain ⟨b, s₁, bound, rest⟩ := bind_eq_some_iff.1 bound
  obtain rfl := binding_of_word h room bound
  obtain ⟨value, s₂, value_, rest⟩ := bind_eq_some_iff.1 rest
  cases rest
  exact ⟨isSome, value, after, value_, goes⟩

theorem defaultValue_of_not {g : Grammar} {s : ReaderState}
    (other : s.token.isPunctuator "=" = false) : defaultValue g ctx s = some ([], s) := by
  unfold defaultValue
  rw [run_bind_of (run_accept_of_not other)]
  rfl

/-- What starts with a word that is not followed as a parameter is. -/
theorem wary_of_word {word : String} {more : List Char} (text : piece ++ rest = word.toList ++ more)
    (spelled : isSpelled word = true) (ends : endsName more = true) {kind : TokenKind}
    (follows : Follows more kind) (other : ∀ mark ∈ ["=", ")", ","], kind ≠ .punctuator mark) :
    Wary ctx piece rest := by
  intro total notes gap depth fits r s item
  rw [text] at fits item
  have room := fits.room
  simp only [List.length_append] at room
  have token := (follows.token (show more.length ≤ total by omega) notes).1
  have other : ∀ mark ∈ ["=", ")", ","],
      (facing total notes more).token.isPunctuator mark = false := by
    intro mark mem
    rw [Token.isPunctuator, token]
    exact beq_eq_false_iff_ne.2 (other mark mem)
  obtain ⟨-, value, after, value_, goes⟩ := exists_of_word spelled ends fits.blank fits.room item
  rw [defaultValue_of_not (other "=" (by simp))] at value_
  cases value_
  -- as a parameter the word would end at once, but neither of the two ends follows
  rcases goes with ⟨closes, -⟩ | comma
  · rw [other ")" (by simp)] at closes
    cases closes
  · rw [run_expect_of_not (other "," (by simp))] at comma
    cases comma

/-- A name alone. -/
theorem wary_name {name : String} (spelled : isSpelled name = true) (ends : endsItem rest) :
    Wary ctx name.toList rest := by
  intro total notes gap depth fits r s item
  have room := fits.room
  simp only [List.length_append] at room
  have room : rest.length ≤ total := by omega
  have isEnd : endsName rest = true ∧
      (facing total notes rest).token.isPunctuator "=" = false := by
    cases rest with
    | nil => rcases ends with ends | ends <;> cases ends
    | cons c rest =>
      rcases ends with ends | ends <;> simp only [List.head?_cons, Option.some.injEq] at ends <;>
        subst ends
      · rw [(shows_next ")" ')' (by decide) (by decide) _).token room]
        exact ⟨rfl, rfl⟩
      · rw [(shows_next "," ',' (by decide) (by decide) _).token room]
        exact ⟨rfl, rfl⟩
  obtain ⟨isSome, value, after, value_, goes⟩ :=
    exists_of_word spelled isEnd.1 fits.blank fits.room item
  rw [defaultValue_of_not isEnd.2] at value_
  cases value_
  exact ⟨isSome, resumes_of_endsItem ends room goes⟩

/-- A plain assignment to a name. -/
theorem wary_assignment {name : String} (spelled : isSpelled name = true) {piece' : List Char}
    {tree : Expression} (value : ReadsWhole ctx.bracketed piece' tree rest) (ends : endsItem rest) :
    Wary ctx (name.toList ++ ' ' :: ("=".toList ++ ' ' :: piece')) rest := by
  have text : name.toList ++ ' ' :: ("=".toList ++ ' ' :: piece') ++ rest =
      name.toList ++ ' ' :: ("=".toList ++ ' ' :: (piece' ++ rest)) := by
    simp
  intro total notes gap depth fits r s item
  rw [text] at fits item
  have room := fits.room
  simp only [List.length_append, List.length_cons] at room
  obtain ⟨isSome, value_, after, default_, goes⟩ :=
    exists_of_word spelled rfl fits.blank fits.room item
  obtain ⟨p, reads, -⟩ := value total notes [' '] depth (by
    refine fits.shorter Blank.space ?_ ?_ <;> simp <;> omega)
  have mark : "=" ∈ punctuators := by decide
  have h : Shows (' ' :: ("=".toList ++ ' ' :: (piece' ++ rest))) _ _ _ _ :=
    (markAt_blank mark (piece' ++ rest)).shows Blank.space
  unfold defaultValue at default_
  rw [run_bind_of (h.accept (by simp only [List.length_cons, List.length_append]; omega) rfl),
    if_pos rfl, show ' ' :: (piece' ++ rest) = [' '] ++ (piece' ++ rest) from rfl,
    run_bind_of reads] at default_
  cases default_
  exact ⟨isSome, resumes_of_endsItem ends (by omega) goes⟩

/-! ## The trial -/

/-- Whether what is taken for parameters, up to a closing parenthesis, ends there. -/
def EndsParameters (ctx : Context) (piece after : List Char) : Prop :=
  ∀ total notes gap depth fuel, Fits total gap (piece ++ ')' :: after) 8 depth →
    ∀ items s, collect (parameterItem (grammar depth) ctx) fuel
        (facing total notes (gap ++ (piece ++ ')' :: after))) = some (items, s) →
      ∃ notes', s = facing total notes' after

theorem endsParameters_last {after : List Char} (wary : Wary ctx piece (')' :: after)) :
    EndsParameters ctx piece after := by
  intro total notes gap depth fuel fits items s collected
  have room := fits.room
  simp only [List.length_append, List.length_cons] at room
  cases fuel with
  | zero => cases collected
  | succ fuel =>
    obtain ⟨r, s₁, item, collected⟩ := bind_eq_some_iff.1 collected
    -- an item that goes on behind a comma is ruled out: a parenthesis stands there
    obtain ⟨isSome, notes', ⟨-, rfl⟩ | ⟨more, eq, -⟩⟩ := wary total notes gap depth fits r s₁ item
    · obtain ⟨value, rfl⟩ := Option.isSome_iff_exists.1 isSome
      obtain ⟨others, s₂, collected, eq⟩ := bind_eq_some_iff.1 collected
      cases eq
      cases fuel with
      | zero => cases collected
      | succ fuel =>
        have closing : Shows (')' :: after) _ _ _ _ :=
          shows_next ")" ')' (by decide) (by decide) _
        have item : parameterItem (grammar depth) ctx (facing total notes' (')' :: after)) =
            some (none, facing total notes' after) := by
          unfold parameterItem
          rw [run_bind_of (run_current _), run_bind_of (closing.accept (by simp; omega) rfl)]
          rfl
        rw [collect, run_bind_of item] at collected
        cases collected
        exact ⟨notes', rfl⟩
    · cases eq

theorem endsParameters_cons {piece' after : List Char}
    (wary : Wary ctx piece (',' :: ' ' :: (piece' ++ ')' :: after)))
    (more : EndsParameters ctx piece' after) :
    EndsParameters ctx (piece ++ ',' :: ' ' :: piece') after := by
  have text : piece ++ ',' :: ' ' :: piece' ++ ')' :: after =
      piece ++ ',' :: ' ' :: (piece' ++ ')' :: after) := by
    simp
  intro total notes gap depth fuel fits items s collected
  rw [text] at fits collected
  cases fuel with
  | zero => cases collected
  | succ fuel =>
    obtain ⟨r, s₁, item, collected⟩ := bind_eq_some_iff.1 collected
    obtain ⟨isSome, notes', ⟨eq, -⟩ | ⟨more_, eq, rfl⟩⟩ := wary total notes gap depth fits r s₁ item
    · cases eq
    · cases eq
      obtain ⟨value, rfl⟩ := Option.isSome_iff_exists.1 isSome
      obtain ⟨others, s₂, collected, eq⟩ := bind_eq_some_iff.1 collected
      cases eq
      exact more total notes' [' '] depth fuel (by
        refine fits.shorter Blank.space ?_ ?_ <;> simp <;> omega) _ _ collected

theorem expectArrow_of_not {s : ReaderState} (other : s.token.isPunctuator "=>" = false) :
    expectArrow s = none := by
  unfold expectArrow
  rw [run_bind_of (run_current _)]
  split
  · rw [run_bind]
    exact run_expect_of_not other
  · exact run_expect_of_not other

/-- Whether no arrow mark follows. -/
def NoArrow (rest : List Char) : Prop :=
  ∀ total, rest.length ≤ total → (scanToken (.before total rest)).isPunctuator "=>" = false

/-- No arrow is read where none is certain and a trial fails. -/
theorem readArrow?_of_trial {g : Grammar} {isAsync : Bool} {t : Token} {s : ReaderState}
    (sign : arrowSign t ≠ .certain) (trial : readArrowTrial g ctx isAsync s = none) :
    readArrow? g ctx isAsync t s = some (none, s) := by
  unfold readArrow?
  rw [run_bind_of (run_current _)]
  cases found : arrowSign t with
  | absent => rfl
  | certain => exact absurd found sign
  | possible =>
    dsimp only
    rw [run_bind, run_attempt, trial]
    rfl

/-- A trial reads the parentheses as parameters, and then finds no arrow behind them. -/
theorem readArrowTrial_parenthesized {after : List Char}
    (ends : EndsParameters ctx.bracketed piece after) (noArrow : NoArrow after) {total : Nat}
    {notes : Notes} {gap : List Char} {depth : Nat}
    (fits : Fits total gap ('(' :: (piece ++ ')' :: after)) 7 depth) :
    readArrowTrial (grammar depth) ctx false
      (facing total notes (gap ++ '(' :: (piece ++ ')' :: after))) = none := by
  have opening : Shows (gap ++ '(' :: (piece ++ ')' :: after)) _ _ _ _ :=
    shows_closed "(" '(' (by decide) (by decide) fits.blank
  have room := fits.room
  simp only [List.length_append, List.length_cons] at room
  have same : ({ ctx with awaits := ctx.awaits || false } : Context) = ctx := by
    simp
  refine Option.eq_none_iff_forall_ne_some.2 fun r trial => ?_
  obtain ⟨params, s₁, head, -⟩ := bind_eq_some_iff.1 trial
  unfold readArrowHead readParameters at head
  simp only [Bool.false_eq_true, if_false, same, bind_assoc] at head
  rw [run_bind_of (opening.expect fits.room rfl)] at head
  obtain ⟨items, s₂, collected, head⟩ := bind_eq_some_iff.1 head
  obtain ⟨notes', rfl⟩ := ends total notes [] depth _ (by
    refine fits.shorter Blank.nil ?_ ?_ <;> simp <;> omega) items s₂ collected
  have other : (facing total notes' after).token.isPunctuator "=>" = false :=
    noArrow total (by omega)
  rw [run_bind_of (run_pure _ _)] at head
  obtain ⟨⟨⟩, s₃, arrow, -⟩ := bind_eq_some_iff.1 head
  rw [expectArrow_of_not other] at arrow
  cases arrow

/-- A parenthesis with an expression behind it is no certain sign of an arrow: only `()` and `(...`
are. -/
theorem arrowSign_parenthesized {tree : Expression} {after : List Char}
    (inner : ReadsSequence ctx.bracketed piece tree (')' :: after)) {total depth : Nat}
    (fits : Fits total [] (piece ++ ')' :: after) 8 depth) (notes : Notes) {t : Token}
    (stop : t.stop = .before total (piece ++ ')' :: after)) : arrowSign t ≠ .certain := by
  obtain ⟨p, reads, -⟩ := inner total notes [] depth fits
  obtain ⟨first, s₁, reads, -⟩ := bind_eq_some_iff.1 reads
  have closes : (scanToken t.stop).isPunctuator ")" = false := by
    rw [stop]
    exact isPunctuator_of_assignment reads (by decide)
  have dots : (scanToken t.stop).isPunctuator "..." = false := by
    rw [stop]
    exact isPunctuator_of_assignment reads (by decide)
  simp only [arrowSign, closes, dots, Bool.false_eq_true, if_false]
  split
  · decide
  · split <;> decide

/-- A parenthesis that starts no arrow leads an expression. -/
theorem leadsWhole_parenthesized {tree : Expression} {after : List Char}
    (inner : ReadsSequence ctx.bracketed piece tree (')' :: after))
    (ends : EndsParameters ctx.bracketed piece after) (noArrow : NoArrow after) :
    LeadsWhole ctx ('(' :: (piece ++ ')' :: after)) := by
  intro total notes gap depth fits
  have opening : Shows (gap ++ '(' :: (piece ++ ')' :: after)) _ _ _ _ :=
    shows_closed "(" '(' (by decide) (by decide) fits.blank
  have token := opening.token fits.room notes
  have sign : arrowSign (facing total notes (gap ++ '(' :: (piece ++ ')' :: after))).token ≠
      .certain := by
    have inside : Fits total [] (piece ++ ')' :: after) 8 depth := by
      refine fits.shorter Blank.nil ?_ ?_ <;> simp <;> omega
    exact arrowSign_parenthesized inner inside notes (congrArg Token.stop token)
  refine ⟨by rw [token]; rfl, ?_⟩
  unfold readLeadingArrow?
  rw [run_bind_of (run_current _), run_bind_of (run_following _), if_pos (by rw [token]; rfl),
    readArrow?_of_trial sign (readArrowTrial_parenthesized ends noArrow fits)]

end

end ReactiveMarkup.Script
