import ReactiveMarkup.Proofs.ReadBackDeclaration

/-!
# Reading back parameters that are names

Parameters are kept as their texts. Where all of them are names, they are read back whatever
follows, and they show that an arrow may follow.
-/

namespace ReactiveMarkup.Script

open Reader

/-- Some texts, each behind a comma. -/
def tailsText (texts : List String) : List Char := texts.flatMap fun t => ',' :: ' ' :: t.toList

theorem toList_commaSeparated (text : String) (texts : List String) :
    (Text.commaSeparated (text :: texts)).toList = text.toList ++ tailsText texts := by
  rw [Text.commaSeparated, String.toList_intercalate]
  induction texts generalizing text with
  | nil => simp [tailsText]
  | cons next texts ih => simp_all [tailsText]

/-- Some texts with commas between them and the closing parenthesis behind them. -/
def closedList : List String → List Char
  | [] => [')']
  | text :: texts => text.toList ++ (tailsText texts ++ [')'])

theorem toList_commaSeparated_closed (texts : List String) :
    (Text.commaSeparated texts).toList ++ [')'] = closedList texts := by
  cases texts with
  | nil => rfl
  | cons text texts => rw [toList_commaSeparated, closedList, List.append_assoc]

section

variable {ctx : Context} {rest : List Char}

theorem readDecorators_of_not {g : Grammar} {s : ReaderState} (room : 0 < g.limit)
    (other : s.token.isPunctuator "@" = false) : readDecorators g ctx s = some ([], s) := by
  have none : decoratorItem g ctx s = some (none, s) := by
    unfold decoratorItem
    rw [run_bind_of (run_accept_of_not other)]
    rfl
  obtain ⟨fuel, limit⟩ : ∃ fuel, g.limit = fuel + 1 := ⟨g.limit - 1, by omega⟩
  rw [readDecorators, limit, collect, run_bind_of none]
  rfl

/-- What follows a name among some names. -/
theorem endsItem_tailsText (names : List String) : endsItem (tailsText names ++ ')' :: rest) := by
  cases names with
  | nil => exact .inl rfl
  | cons name names => exact .inr rfl

theorem endsName_of_endsItem {more : List Char} (ends : endsItem more) : endsName more = true := by
  cases more with
  | nil => rfl
  | cons c more =>
    rcases ends with ends | ends <;> simp only [List.head?_cons, Option.some.injEq] at ends <;>
      subst ends <;> rfl

theorem not_mark_of_endsItem {more : List Char} (ends : endsItem more) {total : Nat}
    (room : more.length ≤ total) (notes : Notes) {mark : String} (noComma : mark ≠ ",")
    (noParenthesis : mark ≠ ")") : (facing total notes more).token.isPunctuator mark = false := by
  cases more with
  | nil => rcases ends with ends | ends <;> cases ends
  | cons c more =>
    rcases ends with ends | ends <;> simp only [List.head?_cons, Option.some.injEq] at ends <;>
      subst ends
    · rw [(shows_next ")" ')' (by decide) (by decide) _).token room]
      exact beq_eq_false_iff_ne.2 fun eq => noParenthesis (TokenKind.punctuator.inj eq).symm
    · rw [(shows_next "," ',' (by decide) (by decide) _).token room]
      exact beq_eq_false_iff_ne.2 fun eq => noComma (TokenKind.punctuator.inj eq).symm

/-- A name as an item of a binding that ends behind it. -/
theorem bindingItem_name {name : String} (bindable : isBindable ctx name = true)
    {more : List Char} (ends : endsItem more) {total : Nat} (notes : Notes) {gap : List Char}
    {depth : Nat} (fits : Fits total gap (name.toList ++ more) 8 depth) :
    bindingItem (grammar depth) ctx (facing total notes (gap ++ (name.toList ++ more))) =
      some (⟨[.bind name], [name]⟩, facing total notes more) := by
  have room : more.length ≤ total := by
    have := fits.room
    simp only [List.length_append] at this
    omega
  have noDefault : (facing total notes more).token.isPunctuator "=" = false :=
    not_mark_of_endsItem ends room notes (by decide) (by decide)
  unfold bindingItem
  rw [run_bind_of (binding_name bindable (endsName_of_endsItem ends) notes fits),
    run_bind_of (defaultValue_of_not noDefault)]
  rfl

/-- A name as a parameter: what is left to read is its end. -/
theorem parameterItem_of_endsItem {name : String} (bindable : isBindable ctx name = true)
    {more : List Char} (ends : endsItem more) {total : Nat} (notes : Notes) {gap : List Char}
    {depth : Nat} (fits : Fits total gap (name.toList ++ more) 8 depth) :
    parameterItem (grammar depth) ctx (facing total notes (gap ++ (name.toList ++ more))) =
      (do
        unless ← at? ")" do expect ","
        return some ⟨name, [.bind name], false⟩ : Reader (Option ParameterScan))
        (facing total notes more) := by
  have room := fits.room
  have fuel := fits.fuel
  simp only [List.length_append] at room fuel
  have word : Shows (gap ++ (name.toList ++ more)) _ _ _ _ :=
    shows_word (isSpelled_of_isBindable bindable) (endsName_of_endsItem ends) fits.blank
  have token := word.token fits.room notes
  have noMark : ∀ mark, (facing total notes (gap ++ (name.toList ++ more))).token.isPunctuator
      mark = false := by
    intro mark
    rw [token]
    rfl
  have text : (Cursor.before total (name.toList ++ more)).slice
      (facing total notes more).last = name := by
    rw [show (facing total notes more).last = total - more.length from rfl,
      Cursor.slice_before (by simp only [List.length_append]; omega), String.ofList_toList]
  unfold parameterItem
  rw [run_bind_of (run_current _), run_bind_of (run_accept_of_not (noMark ")")), if_neg (by decide),
    run_bind_of (run_accept_of_not (noMark "...")), if_neg (by decide),
    run_bind_of (readDecorators_of_not (by rw [grammar_limit]; omega) (noMark "@")),
    run_bind_of (bindingItem_name bindable ends notes fits), run_bind_of (run_lastStop _), token,
    text]
  rfl

/-- A name as a parameter, and what follows it. -/
theorem parameterItem_name {name : String} (bindable : isBindable ctx name = true)
    (names : List String) {total : Nat} (notes : Notes) {gap : List Char} {depth : Nat}
    (fits : Fits total gap (closedList (name :: names) ++ rest) 8 depth) :
    ∃ gap', Blank gap' ∧ gap'.length ≤ 1 ∧
      parameterItem (grammar depth) ctx
          (facing total notes (gap ++ (closedList (name :: names) ++ rest))) =
        some (some ⟨name, [.bind name], false⟩,
          facing total notes (gap' ++ (closedList names ++ rest))) := by
  have whole : closedList (name :: names) ++ rest =
      name.toList ++ (tailsText names ++ ')' :: rest) := by
    simp [closedList]
  rw [whole] at fits ⊢
  have narrow : (tailsText names ++ ')' :: rest).length ≤ total := by
    have room := fits.room
    simp only [List.length_append, List.length_cons] at room ⊢
    omega
  rw [parameterItem_of_endsItem bindable (endsItem_tailsText names) notes fits]
  cases names with
  | nil =>
    have closing : Shows (')' :: rest) _ _ _ _ := shows_next ")" ')' (by decide) (by decide) _
    refine ⟨[], Blank.nil, by simp, ?_⟩
    rw [show tailsText [] ++ ')' :: rest = ')' :: rest from rfl, run_bind_of (run_at? _ _),
      closing.token narrow]
    rfl
  | cons next names =>
    have comma : Shows (',' :: ' ' :: (next.toList ++ (tailsText names ++ ')' :: rest))) _ _ _ _ :=
      shows_next "," ',' (by decide) (by decide) _
    have tails : tailsText (next :: names) ++ ')' :: rest =
        ',' :: ' ' :: (next.toList ++ (tailsText names ++ ')' :: rest)) := by
      simp [tailsText]
    have remaining : [' '] ++ (closedList (next :: names) ++ rest) =
        ' ' :: (next.toList ++ (tailsText names ++ ')' :: rest)) := by
      simp [closedList]
    rw [tails] at narrow
    refine ⟨[' '], Blank.space, by simp, ?_⟩
    rw [tails, remaining, run_bind_of (run_at? _ _), comma.token narrow,
      if_neg (by exact Bool.false_ne_true), run_bind_of (comma.expect narrow rfl)]
    rfl

theorem collect_names (names : List String) : (∀ name ∈ names, isBindable ctx name = true) →
    ∀ {total : Nat} (notes : Notes) {gap : List Char} {depth fuel : Nat},
      Fits total gap (closedList names ++ rest) 8 depth → (closedList names).length + 1 ≤ fuel →
      collect (parameterItem (grammar depth) ctx) fuel
          (facing total notes (gap ++ (closedList names ++ rest))) =
        some (names.map fun name => ⟨name, [.bind name], false⟩, facing total notes rest) := by
  induction names with
  | nil =>
    intro _ total notes gap depth fuel fits enough
    obtain ⟨fuel, rfl⟩ : ∃ f, fuel = f + 1 := ⟨fuel - 1, by omega⟩
    have closing : Shows (gap ++ ([')'] ++ rest)) _ _ _ _ :=
      shows_closed ")" ')' (by decide) (by decide) fits.blank
    have item : parameterItem (grammar depth) ctx (facing total notes (gap ++ ([')'] ++ rest))) =
        some (none, facing total notes rest) := by
      unfold parameterItem
      rw [run_bind_of (run_current _), run_bind_of (closing.accept fits.room rfl)]
      rfl
    rw [closedList, collect, run_bind_of item]
    rfl
  | cons name names ih =>
    intro bindable total notes gap depth fuel fits enough
    have first := bindable name List.mem_cons_self
    obtain ⟨c, piece, spelling, -⟩ := exists_cons_of_isSpelled (isSpelled_of_isBindable first)
    obtain ⟨gap', blank, short, item⟩ := parameterItem_name first names notes fits
    have shorter : (closedList names).length + 1 ≤ (closedList (name :: names)).length := by
      cases names with
      | nil =>
        simp only [closedList, tailsText, List.flatMap_nil, spelling, List.length_append,
          List.length_cons, List.length_nil]
        omega
      | cons next names =>
        simp only [closedList, tailsText, List.flatMap_cons, List.length_append, List.length_cons,
          List.length_nil]
        omega
    obtain ⟨fuel, rfl⟩ : ∃ f, fuel = f + 1 := ⟨fuel - 1, by omega⟩
    have collected := ih (fun name mem => bindable name (List.mem_cons_of_mem _ mem)) notes (show
      Fits total gap' (closedList names ++ rest) 8 depth by
        refine fits.shorter blank ?_ ?_ <;> simp only [List.length_append] <;> omega)
      (show _ ≤ fuel by omega)
    rw [collect, run_bind_of item]
    dsimp only
    rw [run_bind_of collected]
    rfl

theorem boundNames_names (names : List String) :
    boundNames (names.map fun name => .bind name) = distinctNames names := by
  rw [boundNames, List.filterMap_map]
  exact congrArg distinctNames List.filterMap_some

/-- Names as parameters. -/
theorem readsParameters_names {names : List String}
    (bindable : ∀ name ∈ names, isBindable ctx.bracketed name = true) :
    ReadsParameters ctx ('(' :: closedList names) names (distinctNames names) rest := by
  intro total notes gap depth fits
  have opening : Shows (gap ++ '(' :: (closedList names ++ rest)) _ _ _ _ :=
    shows_closed "(" '(' (by decide) (by decide) fits.blank
  have fuel := fits.fuel
  simp only [List.length_append, List.length_cons] at fuel
  have collected := collect_names names bindable notes
    (show Fits total [] (closedList names ++ rest) 8 depth by
      refine fits.shorter Blank.nil ?_ ?_ <;> simp <;> omega)
    (show (closedList names).length + 1 ≤ (grammar depth).limit by rw [grammar_limit]; omega)
  refine ⟨⟨names, names.map fun name => .bind name, false⟩, ?_, rfl, boundNames_names names⟩
  unfold readParameters
  rw [List.cons_append, run_bind_of (opening.expect fits.room rfl),
    ← List.nil_append (closedList _ ++ _), run_bind_of collected]
  simp only [run_pure, List.map_map, Function.comp_def, List.map_id', List.flatMap_map,
    ← List.map_eq_flatMap, List.any_map]
  simp

theorem signsArrow_names {names : List String}
    (bindable : ∀ name ∈ names, isBindable ctx name = true) (more : List Char) :
    SignsArrow (closedList names ++ ' ' :: ("=>".toList ++ ' ' :: more)) := by
  intro total room t stop
  unfold arrowSign
  rw [stop]
  cases names with
  | nil =>
    have closing : Shows (')' :: ' ' :: ("=>".toList ++ ' ' :: more)) _ _ _ _ :=
      shows_next ")" ')' (by decide) (by decide) _
    have known : "=>" ∈ punctuators := by decide
    have arrow : Shows (' ' :: ("=>".toList ++ ' ' :: more)) _ _ _ _ :=
      (markAt_blank known more).shows Blank.space
    rw [closedList, List.singleton_append] at room ⊢
    have room' := Nat.le_of_succ_le room
    simp only [closing total room, arrow total room']
    intro eq
    cases eq
  | cons name names =>
    have first := bindable name List.mem_cons_self
    have text : closedList (name :: names) ++ ' ' :: ("=>".toList ++ ' ' :: more) =
        name.toList ++ (tailsText names ++ ')' :: ' ' :: ("=>".toList ++ ' ' :: more)) := by
      generalize "=>".toList = mark
      simp [closedList]
    rw [text] at room ⊢
    generalize ' ' :: ("=>".toList ++ ' ' :: more) = after at room ⊢
    have ends : endsItem (tailsText names ++ ')' :: after) := endsItem_tailsText names
    have word : Shows (name.toList ++ (tailsText names ++ ')' :: after)) _ _ _ _ :=
      shows_word (isSpelled_of_isBindable first) (endsName_of_endsItem ends) Blank.nil
    have binds : isReserved name = false := by
      simp only [isBindable, Bool.and_eq_true, Bool.not_eq_true'] at first
      exact first.1.1.2
    have next : [",", "=", ")"].any
        (scanToken (.before total (tailsText names ++ ')' :: after))).isPunctuator = true := by
      rw [List.length_append] at room
      cases names with
      | nil =>
        rw [show tailsText [] ++ ')' :: after = ')' :: after from rfl,
          shows_next ")" ')' (by decide) (by decide) after total (Nat.le_of_add_left_le room)]
        rfl
      | cons next names =>
        rw [show tailsText (next :: names) ++ ')' :: after =
          ',' :: (' ' :: (next.toList ++ tailsText names) ++ ')' :: after) by simp [tailsText],
          shows_next "," ',' (by decide) (by decide) _ total (by
            simpa [tailsText] using Nat.le_of_add_left_le room)]
        rfl
    simp only [word total room, next, Token.isBindingWord, binds]
    intro eq
    cases eq

end

end ReactiveMarkup.Script
