import ReactiveMarkup.Proofs.ReadBackPlace

/-!
# Reading back trees

A grouped tree that keeps its reading is read back from its printed text, as the tree settled. The
proof goes over the tree, with a case for each kind of expression and statement.
-/

namespace ReactiveMarkup.Script

open Reader
open Text (indentation)

/-! ## Names -/

theorem isSpelled_of_isNamed {name : String} (named : isNamed name = true) :
    isSpelled name = true := by
  simp only [isNamed, Bool.and_eq_true] at named
  exact named.1

theorem isPlainName_of_isNamed {name : String} (named : isNamed name = true)
    (single : isDouble name = false) : isPlainName name = true := by
  rw [isPlainName, ← isNamed, named, Bool.true_and, Bool.not_eq_true']
  exact single

/-- A name that is nothing but a name, or one that keeps its reading. -/
theorem readsBack_identifier {ctx : Context} {depth : Nat} {place : Place} {rest : List Char}
    {name : String} (named : isNamed name = true)
    (keeps : isDouble name = false ∨ place.ReadsLeaf ctx name.toList (.identifier name) rest)
    (ends : place.Ends rest) : (Expression.identifier name).ReadsBack ctx depth place rest := by
  by_cases plain : isPlainName name = true
  · refine .of_chain rfl (readsChain_identifier plain ends.endsName)
      (leadsWhole_name plain ends.endsName) (fun _ ends => ?_) ends
    exact wary_name (isPlainName_spelled plain) ends
  · rcases keeps with single | leaf
    · exact absurd (isPlainName_of_isNamed named single) plain
    · exact .of_leaf rfl (if_neg plain) leaf

/-- A name that a value is written to. -/
theorem readsDestination_identifier {ctx : Context} {name : String} (named : isNamed name = true)
    {mark : Option String} {rest : List Char} (ends : TargetEnds mark rest)
    (keeps : isDouble name = false ∨
      ReadsDestination ctx mark name.toList (.identifier name) rest) :
    ReadsDestination ctx mark name.toList (.identifier name) rest := by
  rcases keeps with single | leaf
  · have plain := isPlainName_of_isNamed named single
    exact (readsChain_identifier plain ends.1.1).destination (leadsWhole_name plain ends.1.1) rfl
      ends
  · exact leaf

/-! ## Functions -/

section

variable {ctx : Context} (opened : ctx.bracketed = ctx) {signature : Signature} {rest : List Char}
include opened

theorem bracketed_inside (s : Signature) : (s.inside ctx).bracketed = s.inside ctx := by
  unfold Signature.inside
  split
  · exact congrArg (fun c : Context => { c with awaits := ctx.awaits || s.isAsync }) opened
  · rfl

theorem bracketed_arrow (isAsync : Bool) : (ctx.arrow isAsync).bracketed = ctx.arrow isAsync :=
  congrArg (fun c : Context => { c with yields := false, awaits := isAsync }) opened

theorem readsParameters_of_keeps {body : List Char} (keeps : signature.Keeps ctx body) :
    ReadsParameters (signature.inside ctx) ('(' :: closedList signature.params) signature.params
        signature.paramNames (signature.behindParams body) ∧
      (signature.isArrow = true →
        SignsArrow (closedList signature.params ++ signature.behindParams body)) := by
  rcases keeps with ⟨bindable, names⟩ | reads
  · refine ⟨?_, fun arrow => ?_⟩
    · rw [names]
      refine readsParameters_names ?_
      rw [bracketed_inside opened]
      exact bindable
    · rw [Signature.behindParams, if_pos arrow]
      exact signsArrow_names bindable body
  · exact reads

variable {depth id : Nat} {place : Place}

/-- A function with a block. -/
theorem readsBack_block {body : List Statement}
    (stands : signature.Stands (.function signature.isAsync signature.isGenerator) place)
    (grouped : Statement.GroupedAll (.function signature.isAsync signature.isGenerator) body)
    (keeps : signature.Keeps ctx (blockText depth body ++ rest))
    (reads : ReadsBody (.function signature.isAsync signature.isGenerator) (blockText depth body)
      (Statement.settleAll (depth + 1) body) rest)
    (ends : place.Ends rest) :
    (Expression.function ⟨id, signature, .block body⟩).ReadsBack ctx depth place rest := by
  have isGrouped : (Expression.function ⟨id, signature, .block body⟩).Grouped ctx place :=
    ⟨stands, grouped⟩
  have wary : (Expression.function ⟨id, signature, .block body⟩).opener ≠ none → endsItem rest →
      Wary ctx ((Expression.function ⟨id, signature, .block body⟩).chars depth) rest :=
    Expression.wary_of_firm isGrouped ends trivial
  have text : (Expression.function ⟨id, signature, .block body⟩).chars depth =
      signature.text (blockText depth body) := chars_function_block depth id signature body
  obtain ⟨readsParams, signs⟩ := readsParameters_of_keeps opened keeps
  obtain ⟨name, isArrow, isAsync, isGenerator, params, paramNames⟩ := signature
  cases isArrow with
  | true =>
    obtain ⟨whole, rfl, rfl⟩ := stands
    refine .of_whole whole rfl ?_ wary ends
    rw [text]
    exact readsWhole_arrow readsParams (signs rfl) (readsArrowBody_block reads)
  | false =>
    refine .of_chain rfl ?_ ?_ wary ends
    · rw [text]
      exact readsChain_function stands readsParams reads
    · rw [text, Signature.text, List.append_assoc]
      exact leadsWhole_function ctx

end

/-- An arrow with an expression. -/
theorem readsBack_concise {ctx : Context} (opened : ctx.bracketed = ctx) {signature : Signature}
    {rest : List Char} {depth id : Nat} {place : Place} {value : Expression}
    (grouped : (Expression.function ⟨id, signature, .expression value⟩).Grouped ctx place)
    (keeps : signature.Keeps ctx (conciseChars depth value ++ rest))
    (reads : ReadsArrowBody ctx signature.isAsync (conciseChars depth value)
      (.expression (if Text.startsWith (value.printAt depth) "\x7b"
        then .parenthesized (value.settle depth) else value.settle depth)) rest)
    (ends : place.Ends rest) :
    (Expression.function ⟨id, signature, .expression value⟩).ReadsBack ctx depth place rest := by
  have wary : (Expression.function ⟨id, signature, .expression value⟩).opener ≠ none →
      endsItem rest →
      Wary ctx ((Expression.function ⟨id, signature, .expression value⟩).chars depth) rest :=
    Expression.wary_of_firm grouped ends trivial
  obtain ⟨arrow, stands, -⟩ := grouped
  have text : (Expression.function ⟨id, signature, .expression value⟩).chars depth =
      signature.text (conciseChars depth value) :=
    chars_function_concise depth id signature value arrow
  obtain ⟨readsParams, signs⟩ := readsParameters_of_keeps opened keeps
  obtain ⟨name, isArrow, isAsync, isGenerator, params, paramNames⟩ := signature
  obtain rfl : isArrow = true := arrow
  obtain ⟨whole, rfl, rfl⟩ := stands
  refine .of_whole whole rfl ?_ wary ends
  rw [text]
  exact readsWhole_arrow readsParams (signs rfl) reads

/-! ### Bodies -/

theorem noBrace_of_opens {text after : List Char} {kind : TokenKind} (opens : Opens text kind after)
    (other : kind ≠ .punctuator "\x7b") : NoBrace text := by
  intro total gap blank room
  rw [opens gap blank total room]
  exact beq_eq_false_iff_ne.2 other

theorem Begins.not_brace {kind : TokenKind} {text : List Char} {firm : Prop}
    (begins : Begins kind text firm) : kind ≠ .punctuator "\x7b" := by
  rcases begins with ⟨mark, after, rfl, known, -⟩ | ⟨word, more, rfl, -⟩
  · rintro eq
    rw [TokenKind.punctuator.inj eq] at known
    exact absurd known (by decide)
  · nofun

theorem toList_conciseBody (depth : Nat) (value : Expression) :
    conciseChars depth value = if Text.startsWith (value.printAt depth) "\x7b"
      then '(' :: (value.chars depth ++ [')']) else value.chars depth := by
  unfold conciseChars conciseBody
  split
  · simp [Expression.chars]
  · rfl

/-- The body of an arrow that is an expression, between parentheses where it starts with a brace. -/
theorem readsArrowBody_of_keeps {ctx : Context} (opened : ctx.bracketed = ctx) {isAsync : Bool}
    {depth : Nat} {rest : List Char} {value : Expression}
    (grouped : value.Grouped (ctx.arrow isAsync) .whole)
    (keeps : if Text.startsWith (value.printAt depth) "\x7b" then
        KeptInside (ctx.arrow isAsync) depth rest value
          fun place rest => value.Keeps (ctx.arrow isAsync) depth place rest
      else
        value.Keeps (ctx.arrow isAsync) depth .whole rest ∧
          (value.opener = none → NoBrace (value.chars depth ++ rest)))
    (reads : ∀ place rest, value.Grouped (ctx.arrow isAsync) place →
      value.Keeps (ctx.arrow isAsync) depth place rest → place.Ends rest →
      value.Closes (ctx.arrow isAsync) rest →
      value.ReadsBack (ctx.arrow isAsync) depth place rest)
    (ends : endsWhole rest = true) :
    ReadsArrowBody ctx isAsync (conciseChars depth value)
      (.expression (if Text.startsWith (value.printAt depth) "\x7b"
        then .parenthesized (value.settle depth) else value.settle depth)) rest := by
  have ended : Place.whole.Ends rest := ends
  rw [toList_conciseBody]
  split at keeps
  · rename_i brace
    rw [if_pos brace, if_pos brace]
    have inside : Place.sequence.Ends (')' :: rest) := rfl
    have inner := reads .sequence (')' :: rest) grouped.sequence keeps.1 inside
      (inside.closes rfl _ value)
    obtain ⟨chain, leads⟩ := inner.parenthesized (bracketed_arrow opened isAsync) keeps.2
      (noArrow_of_endsWhole ends)
    obtain ⟨kind, follows, stops⟩ := endsOperand_of_endsWhole ends
    refine readsArrowBody_concise ((chain.operands follows stops 0).whole leads ends) ?_
    exact noBrace_of_opens (opens_closed "(" '(' (by decide) (by decide) _) (by decide)
  · rename_i brace
    rw [if_neg brace, if_neg brace]
    have inner := reads .whole rest grouped keeps.1 ended (ended.closes rfl _ value)
    refine readsArrowBody_concise inner.reads ?_
    cases opener : value.opener with
    | none => exact keeps.2 opener
    | some kind =>
      have begins := value.begins depth rest grouped opener (endsName_of_endsWhole ends)
      obtain ⟨after, opens⟩ := begins.opens
      exact noBrace_of_opens opens begins.not_brace

/-! ## Statements -/

/-- What reads back as statements does not start with `else`. -/
theorem ReadsLines.noElse {ctx : Context} {isFirst : Bool} {piece rest gap : List Char}
    {trees : List Statement} (lines : ReadsLines ctx isFirst piece trees rest) (blank : Blank gap) :
    NoElse (gap ++ (piece ++ rest)) := by
  intro total room
  obtain ⟨clauses, collected, -⟩ := lines total ⟨0, false⟩ gap
    (4 * (gap ++ (piece ++ rest)).length + 9) (piece.length + 1) ⟨blank, room, Nat.le_refl _⟩
    (Nat.le_refl _)
  change (facing total ⟨0, false⟩ (gap ++ (piece ++ rest))).token.isWord "else" = false
  generalize facing total ⟨0, false⟩ (gap ++ (piece ++ rest)) = s at collected ⊢
  obtain ⟨item, s', item_, -⟩ := bind_eq_some_iff.1 collected
  by_cases closes : s.token.isPunctuator "\x7d" = true
  · rw [Token.isWord, eq_of_beq closes]
  · unfold blockItem at item_
    rw [run_bind_of (run_accept_of_not (Bool.not_eq_true _ ▸ closes)), if_neg (by decide)] at item_
    obtain ⟨clause, s'', reads, -⟩ := bind_eq_some_iff.1 item_
    exact (opens_of_statement reads).2.2.1

theorem chars_expression (depth : Nat) (e : Expression) :
    (Statement.expression e).chars depth = if isWrapped (e.printAt depth)
      then '(' :: (e.chars depth ++ [')']) ++ [';'] else e.chars depth ++ [';'] := by
  rw [Statement.chars, Statement.printAt, expressionStatement_eq]
  split
  · simp [Expression.chars]
  · simp [Expression.chars]

theorem isVerbatim_settle (e : Expression) (depth : Nat) :
    (e.settle depth).isVerbatim = e.isVerbatim := by
  cases e <;> rfl

/-- An expression that starts plainly leads a statement. -/
theorem Begins.leadsStatement {ctx : Context} {isSingle : Bool} {kind : TokenKind}
    {text : List Char} {firm : Prop} (begins : Begins kind text firm)
    (plain : ∀ word, kind = .word word false → isPlainName word = true) :
    LeadsStatement ctx isSingle text := by
  rcases begins with ⟨mark, after, rfl, known, opens⟩ | ⟨word, more, isWord, -, rfl, ends, -⟩
  · refine leadsStatement_of_mark opens ?_
    simp only [List.mem_cons, List.not_mem_nil, or_false] at known
    rcases known with rfl | rfl | rfl <;> decide
  · exact leadsStatement_name (plain word isWord) ends

/-- An expression as a statement, between parentheses where the printer puts them. -/
theorem readsStatement_of_keeps {ctx : Context} (opened : ctx.bracketed = ctx)
    {isSingle isFirst : Bool} {depth : Nat} {rest : List Char} {e : Expression}
    (grouped : e.Grouped ctx .sequence)
    (keeps : if isWrapped (e.printAt depth) then
        KeptInside ctx depth (';' :: rest) e fun place rest => e.Keeps ctx depth place rest
      else if e.isVerbatim then
        ReadsStatement ctx isSingle isFirst (e.chars depth ++ [';']) (.expression e) [] rest
      else
        e.Keeps ctx depth .sequence (';' :: rest) ∧
          (e.leadsPlainly = false → LeadsStatement ctx isSingle (e.chars depth ++ ';' :: rest)))
    (reads : ∀ place rest, e.Grouped ctx place → e.Keeps ctx depth place rest → place.Ends rest →
      e.Closes ctx rest → e.ReadsBack ctx depth place rest) :
    ReadsStatement ctx isSingle isFirst ((Statement.expression e).chars depth)
      ((Statement.expression e).settle depth) [] rest := by
  rw [chars_expression, Statement.settle]
  have ended : Place.sequence.Ends (';' :: rest) := rfl
  split at keeps
  · rename_i wrapped
    rw [if_pos wrapped, if_pos wrapped]
    have inside : Place.sequence.Ends (')' :: ';' :: rest) := rfl
    have inner := reads .sequence (')' :: ';' :: rest) grouped keeps.1 inside
      (inside.closes rfl _ e)
    obtain ⟨chain, leads⟩ := inner.parenthesized opened keeps.2 ended.noArrow
    obtain ⟨kind, follows, stops⟩ := endsOperand_of_endsWhole (ended.endsWhole rfl)
    have whole := (chain.operands follows stops 0).whole leads (ended.endsWhole rfl)
    refine readsStatement_expression ?_ ?_ (fun _ => rfl)
    · exact leadsStatement_of_mark (opens_closed "(" '(' (by decide) (by decide) _) (by decide)
    · rw [opened]
      exact whole.sequence ended
  · rename_i plain
    rw [if_neg plain, if_neg plain]
    split at keeps
    · rename_i verbatim
      cases e with
      | verbatim source references => exact keeps
      | _ => cases verbatim
    · rename_i noVerbatim
      have inner := reads .sequence (';' :: rest) grouped keeps.1 ended (ended.closes rfl _ e)
      refine readsStatement_expression ?_ ?_ fun _ => ?_
      · cases leads : e.leadsPlainly with
        | false => exact keeps.2 leads
        | true =>
          unfold Expression.leadsPlainly at leads
          cases opener : e.opener with
          | none => simp [opener] at leads
          | some kind =>
            refine (e.begins depth (';' :: rest) grouped opener rfl).leadsStatement ?_
            rintro word rfl
            simpa [opener] using leads
      · rw [opened]
        exact inner.reads
      · rw [isVerbatim_settle]
        exact Bool.eq_false_iff.2 noVerbatim

/-! ### Conditions -/

theorem chars_conditional (depth : Nat) (test : Expression) (consequent : Statement) :
    (Statement.conditional test consequent none).chars depth =
      testText (test.chars depth) ++ branchText depth consequent := by
  rw [← toList_branch]
  have keyword : "if (".toList = "if".toList ++ [' ', '('] := by decide
  simp only [Statement.chars, Statement.printAt, String.toList_append, testText, keyword,
    Expression.chars]
  generalize "if".toList = word
  simp

theorem chars_conditional_else (depth : Nat) (test : Expression)
    (consequent alternate : Statement) :
    (Statement.conditional test consequent (some alternate)).chars depth =
      testText (test.chars depth) ++
        (branchText depth consequent ++ elseText (branchText depth alternate)) := by
  rw [← toList_branch, ← toList_branch]
  have keyword : "if (".toList = "if".toList ++ [' ', '('] := by decide
  have other : " else ".toList = [' '] ++ ("else".toList ++ [' ']) := by decide
  simp only [Statement.chars, Statement.printAt, String.toList_append, testText, keyword, elseText,
    other, Expression.chars]
  generalize "if".toList = word
  generalize "else".toList = word'
  simp

/-- A branch of a condition, in a block of its own where the printer puts it into one. -/
theorem readsStatement_branch {ctx : Context} {depth : Nat} {rest : List Char} {s : Statement}
    {keeps : Nat → Bool → List Char → Prop} (kept : KeptBranch depth rest s keeps)
    (grouped : s.Grouped ctx false) (noElse : s.isOpen = true → NoElse rest)
    (reads : ∀ depth isSingle rest, s.Grouped ctx isSingle → keeps depth isSingle rest →
      (s.isOpen = true → NoElse rest) →
      ∃ exports, ReadsStatement ctx isSingle false (s.chars depth) (s.settle depth) exports rest) :
    ∃ exports, ReadsStatement ctx true false (branchText depth s)
      (settledBranch s (fun d => s.settle d) depth) exports rest := by
  unfold KeptBranch at kept
  unfold branchText settledBranch
  cases branches : s.isBranch with
  | true =>
    simp only [branches, if_true] at kept ⊢
    refine reads depth true rest ?_ kept noElse
    cases s with
    | block id body => exact grouped
    | conditional test consequent alternate =>
      cases alternate with
      | none => exact grouped
      | some alternate => exact grouped
    | _ => cases branches
  | false =>
    simp only [branches, Bool.false_eq_true, if_false] at kept ⊢
    have closing : ReadsLines ctx false ['\x7d'] [] rest := readsLines_nil
    obtain ⟨exports, inner⟩ := reads (depth + 1) false
      ('\n' :: ((indentation depth).toList ++ '\x7d' :: rest)) grouped kept
      (fun _ => closing.noElse (blank_indentation depth).cons_newLine)
    have lines : ReadsLines ctx false (closedLines depth [s]) [s.settle (depth + 1)] rest :=
      readsLines_cons inner (blank_indentation depth) closing
    exact ⟨[], readsStatement_block lines (blank_blockIndent depth [s])⟩

/-! ### Declarations -/

/-- The characters of a binding. -/
def declaratorChars (depth : Nat) (pattern : Pattern) : Option Expression → List Char
  | none => pattern.text.toList
  | some init => pattern.text.toList ++ initText (init.chars depth)

/-- Whether some bindings with commas between them are read back. -/
def Declarator.AllReadBack (ctx : Context) (depth : Nat) (rest : List Char) :
    List Declarator → Prop
  | [] => True
  | ⟨pattern, init⟩ :: ds =>
    ReadsDeclarator ctx (declaratorChars depth pattern init)
        ⟨pattern, init.map fun e => e.settle depth⟩
        (tailsText (Declarator.printAllAt depth ds) ++ rest) ∧
      Declarator.AllReadBack ctx depth rest ds

section

variable (depth : Nat)

theorem printAllAt_declarators (pattern : Pattern) (init : Option Expression)
    (ds : List Declarator) :
    Declarator.printAllAt depth (⟨pattern, init⟩ :: ds) =
      String.ofList (declaratorChars depth pattern init) :: Declarator.printAllAt depth ds := by
  cases init with
  | none => simp [Declarator.printAllAt, declaratorChars]
  | some init =>
    rw [Declarator.printAllAt, declaratorChars]
    congr 1
    apply String.toList_inj.1
    simp [initText, Expression.chars]

theorem settleAll_declarators (pattern : Pattern) (init : Option Expression)
    (ds : List Declarator) :
    Declarator.settleAll depth (⟨pattern, init⟩ :: ds) =
      ⟨pattern, init.map fun e => e.settle depth⟩ :: Declarator.settleAll depth ds := by
  cases init <;> rfl

theorem isComplete_settle (kind : DeclarationKind) (pattern : Pattern) (init : Option Expression) :
    Declarator.isComplete kind ⟨pattern, init.map fun e => e.settle depth⟩ =
      Declarator.isComplete kind ⟨pattern, init⟩ := by
  cases init <;> rfl

theorem all_isComplete_settle (kind : DeclarationKind) (ds : List Declarator) :
    (Declarator.settleAll depth ds).all (Declarator.isComplete kind) =
      ds.all (Declarator.isComplete kind) := by
  induction ds with
  | nil => rfl
  | cons d ds ih =>
    obtain ⟨pattern, init⟩ := d
    rw [settleAll_declarators, List.all_cons, List.all_cons, ih, isComplete_settle]

theorem readsDeclaratorTails_of_all {ctx : Context} {rest : List Char}
    (ends : endsSequence rest = true) : (ds : List Declarator) →
    Declarator.AllReadBack ctx depth rest ds →
    ReadsDeclaratorTails ctx (tailsText (Declarator.printAllAt depth ds))
      (Declarator.settleAll depth ds) rest
  | [], _ => readsDeclaratorTails_nil ends
  | ⟨pattern, init⟩ :: ds, ⟨first, more⟩ => by
    have all := readsDeclaratorTails_cons first (readsDeclaratorTails_of_all ends ds more)
    rw [settleAll_declarators, printAllAt_declarators]
    simpa [tailsText] using all

theorem chars_declaration (kind : DeclarationKind) (pattern : Pattern) (init : Option Expression)
    (ds : List Declarator) :
    (Statement.declaration kind (⟨pattern, init⟩ :: ds)).chars depth =
      kind.keyword.toList ++ ' ' :: (declaratorChars depth pattern init ++
        (tailsText (Declarator.printAllAt depth ds) ++ [';'])) := by
  rw [Statement.chars, Statement.printAt, printAllAt_declarators]
  simp only [String.toList_append, toList_commaSeparated]
  simp

end

/-! ## Trees -/

theorem ends_dot {property : String} (spelled : isSpelled property = true) (rest : List Char) :
    Place.chain.Ends ('.' :: (property.toList ++ rest)) :=
  ⟨rfl, noArrow_of_shows ((markAt_dot spelled).shows Blank.nil) (by decide)⟩

theorem ends_parenthesis (rest : List Char) : Place.chain.Ends ('(' :: rest) :=
  ⟨rfl, noArrow_of_shows (shows_next "(" '(' (by decide) (by decide) rest) (by decide)⟩

/-- What follows an item among some with commas between them. -/
theorem ends_tails {place : Place} (items : place = .whole ∨ place = .argument) {rest : List Char}
    (ends : place.Ends rest) (depth : Nat) (es : List Expression) :
    place.Ends (tailsText (Expression.printAllAt depth es) ++ rest) := by
  cases es with
  | nil => exact ends
  | cons e es =>
    rw [tailsText_cons]
    rcases items with rfl | rfl
    · rfl
    · exact .inr rfl

/-- What follows a binding among some with commas between them. -/
theorem endsWhole_tails (depth : Nat) (ds : List Declarator) {rest : List Char}
    (ends : endsSequence rest = true) :
    endsWhole (tailsText (Declarator.printAllAt depth ds) ++ rest) = true := by
  cases ds with
  | nil => exact endsWhole_of_endsSequence ends
  | cons d ds =>
    obtain ⟨pattern, init⟩ := d
    rw [printAllAt_declarators]
    rfl

/-- A pattern that is a name, or one that keeps its reading. -/
theorem readsBinding_of_keeps {ctx : Context} {pattern : Pattern} {rest : List Char}
    (binds : pattern.Binds ctx) (keeps : pattern.Keeps ctx rest) (ends : endsName rest = true) :
    ReadsBinding ctx pattern.text.toList pattern rest := by
  cases pattern with
  | identifier name => exact readsBinding_name binds ends
  | destructure source names => exact keeps

theorem allowsIn_of_opened {ctx : Context} (opened : ctx.bracketed = ctx) :
    ctx.allowsIn = true := by
  rw [← opened]
  rfl

theorem atOnce_of_opens {text after : List Char} {kind : TokenKind}
    (opens : Opens text kind after) : AtOnce text := by
  intro total room
  have h := opens [' '] Blank.space total (by simpa [Nat.add_comm] using room)
  rw [show ' ' :: text = [' '] ++ text from rfl, h]
  rfl

theorem chars_result (depth : Nat) (value : Expression) :
    (Statement.result (some value)).chars depth =
      "return".toList ++ ' ' :: (value.chars depth ++ [';']) := by
  have keyword : "return ".toList = "return".toList ++ [' '] := by decide
  simp only [Statement.chars, Statement.printAt, String.toList_append, keyword, Expression.chars]
  generalize "return".toList = word
  simp

theorem chars_return (depth : Nat) :
    (Statement.result none).chars depth = "return".toList ++ [';'] := by
  rw [Statement.chars, Statement.printAt]
  decide

theorem chars_labeled (depth : Nat) (label : String) (body : Statement) :
    (Statement.labeled label body).chars depth =
      label.toList ++ ':' :: ' ' :: body.chars depth := by
  simp [Statement.chars, Statement.printAt]

mutual

theorem Expression.readsBack {ctx : Context} (opened : ctx.bracketed = ctx) {depth : Nat} :
    (e : Expression) → {place : Place} → {rest : List Char} → e.Grouped ctx place →
      e.Keeps ctx depth place rest → place.Ends rest → e.Closes ctx rest →
      e.ReadsBack ctx depth place rest
  | .identifier name, place, rest, grouped, keeps, ends, _ =>
    readsBack_identifier grouped keeps ends
  | .binary left operator right, place, rest, isGrouped, ⟨fit, keepsLeft, keepsRight⟩, ends,
      closes => by
    have ⟨inner, known, binds, before, groupedLeft, groupedRight⟩ := isGrouped
    have allowsIn := allowsIn_of_opened opened
    have stops := closes operator rfl
    have ended : (Place.operand (operatorLevel operator)).Ends rest :=
      ⟨ends.endsName, ends.noArrow, ends.endsOperand inner⟩
    have first := left.readsBack opened groupedLeft keepsLeft
      (ends_operand_operator known _ _) (closes_before_operator known allowsIn before _)
    have second := right.readsBack opened groupedRight keepsRight ended
      (closes_right groupedRight stops)
    have operands := readsOperands_binary allowsIn known binds first.reads
      (ReadsOperands.operation second.reads stops) fit
    refine .of_operands inner rfl ?_ ?_ (Expression.wary_of_firm isGrouped ends trivial) ends
    · rw [chars_binary]
      exact operands
    · rw [chars_binary]
      simpa using first.leads rfl
  | .assignment mark target right, place, rest, isGrouped, ⟨keepsTarget, keepsRight⟩, ends, _ => by
    have ⟨whole, known, groupedTarget, groupedRight⟩ := isGrouped
    have ended : Place.whole.Ends rest := ends.endsWhole whole
    obtain ⟨left, leads⟩ := target.readsBack opened groupedTarget keepsTarget
      (targetEnds_assignment known _)
    have value := right.readsBack opened groupedRight keepsRight ended
      (ended.closes rfl ctx right)
    refine .of_whole whole rfl ?_ (fun shown isItem => ?_) ends
    · rw [chars_assignment]
      exact readsWhole_assignment known left leads value.reads
    · cases target with
      | identifier name =>
        by_cases plain : mark = "="
        · subst plain
          rw [chars_assignment]
          exact wary_assignment (isSpelled_of_isNamed groupedTarget) (opened.symm ▸ value.reads)
            isItem
        · exact Expression.wary_of_firm isGrouped ends plain shown isItem
      | _ => exact Expression.wary_of_firm isGrouped ends trivial shown isItem
  | .update mark true target, place, rest, isGrouped, keeps, ends, _ => by
    have ⟨inner, known, grouped⟩ := isGrouped
    obtain ⟨kind, follows, stops⟩ := ends.endsOperand inner
    obtain ⟨destination, -⟩ := target.readsBack opened grouped keeps
      ⟨⟨ends.endsName, ends.noArrow⟩, kind, follows, stopsChain_of_stopsOperand stops⟩
    refine .of_operands inner rfl ?_ ?_ (Expression.wary_of_firm isGrouped ends trivial) ends
    · rw [chars_leading]
      exact readsOperands_prefix known destination follows stops _
    · rw [chars_leading, List.append_assoc]
      refine leadsWhole_of_opens (opens_mark (markAt_closed (updateMark_closed known) _)) ?_ ?_
      · intro eq
        rw [TokenKind.punctuator.inj eq] at known
        exact absurd known (by decide)
      · exact fun t kind => ⟨Token.isWord_of_punctuator kind _, Token.isWord_of_punctuator kind _⟩
  | .update mark false target, place, rest, isGrouped, keeps, ends, _ => by
    have ⟨inner, known, grouped⟩ := isGrouped
    obtain ⟨destination, leads⟩ := target.readsBack opened grouped keeps
      (targetEnds_update known rest)
    refine .of_operands inner rfl ?_ ?_ (Expression.wary_of_firm isGrouped ends trivial) ends
    · rw [chars_trailing]
      exact readsOperands_postfix known destination _
    · rw [chars_trailing, List.append_assoc]
      exact leads
  | .call function arguments _, place, rest, isGrouped, ⟨keepsFunction, keepsArguments⟩, ends,
      _ => by
    obtain ⟨rfl, groupedFunction, groupedArguments⟩ := id isGrouped
    have closing : Place.argument.Ends (')' :: rest) := .inl rfl
    have items := readsArguments_of_all arguments (Expression.allReadBack opened arguments
      groupedArguments keepsArguments (.inr rfl) closing)
    obtain ⟨chain, leads⟩ := readsChain_callee opened keepsFunction groupedFunction
      (fun _ _ grouped keeps ends closes => function.readsBack opened grouped keeps ends closes)
      (ends_parenthesis _)
    refine .of_chain rfl ?_ ?_ (Expression.wary_of_firm isGrouped ends trivial) ends
    · rw [chars_call]
      exact readsChain_call chain (opened.symm ▸ items)
    · rw [chars_call, List.append_assoc]
      exact leads
  | .member object property _, place, rest, isGrouped, keeps, ends, _ => by
    obtain ⟨rfl, spelled, grouped⟩ := id isGrouped
    obtain ⟨chain, leads⟩ := readsChain_callee opened keeps grouped
      (fun _ _ grouped keeps ends closes => object.readsBack opened grouped keeps ends closes)
      (ends_dot spelled rest)
    refine .of_chain rfl ?_ ?_ (Expression.wary_of_firm isGrouped ends trivial) ends
    · rw [chars_member]
      exact readsChain_member spelled ends.endsName chain
    · rw [chars_member, List.append_assoc]
      exact leads
  | .parenthesized inner, place, rest, grouped, ⟨keeps, isWary⟩, ends, _ => by
    have isGrouped : (Expression.parenthesized inner).Grouped ctx place := grouped
    have ended : Place.sequence.Ends (')' :: rest) := rfl
    have reads := inner.readsBack opened grouped keeps ended (ended.closes rfl ctx inner)
    obtain ⟨chain, leads⟩ := reads.parenthesized opened isWary ends.noArrow
    refine .of_chain rfl ?_ ?_ (Expression.wary_of_firm isGrouped ends trivial) ends
    · rw [chars_parenthesized]
      exact chain
    · rw [chars_parenthesized]
      exact leads
  | .sequence items, place, rest, ⟨isSequence, several, grouped⟩, keeps, ends, _ => by
    subst isSequence
    have ended : Place.whole.Ends rest := endsWhole_of_endsSequence ends
    have all := Expression.allReadBack opened items grouped keeps (.inl rfl) ended
    match items, several, all with
    | first :: second :: others, _, all =>
      refine ⟨?_, nofun, nofun, ?_⟩
      · rw [chars_sequence]
        refine readsSequence_of_tails all.1.reads (readsTails_of_all ends _ all.2) ?_
        rw [tailsText_cons]
        rfl
      · rintro - after rfl isWary
        rw [chars_sequence]
        exact endsParameters_of_all first _ all isWary
  | .function f, place, rest, grouped, keeps, ends, _ => f.readsBack opened grouped keeps ends
  | .verbatim source references, place, rest, _, leaf, _, _ => .of_leaf rfl rfl leaf
termination_by structural e => e

theorem Expression.allReadBack {ctx : Context} (opened : ctx.bracketed = ctx) {depth : Nat} :
    (es : List Expression) → {place : Place} → {rest : List Char} →
      Expression.GroupedAll ctx place es → Expression.KeepsAll ctx depth place rest es →
      (place = .whole ∨ place = .argument) → place.Ends rest →
      Expression.AllReadBack ctx depth place rest es
  | [], _, _, _, _, _, _ => trivial
  | e :: es, place, rest, ⟨grouped, more⟩, ⟨keeps, others⟩, items, ends => by
    have ended := ends_tails items ends depth es
    have whole : place.isWhole = true := by
      rcases items with rfl | rfl <;> rfl
    exact ⟨e.readsBack opened grouped keeps ended (ended.closes whole ctx e),
      Expression.allReadBack opened es more others items ends⟩
termination_by structural es => es

theorem Target.readsBack {ctx : Context} (opened : ctx.bracketed = ctx) {depth : Nat} :
    (t : Target) → {mark : Option String} → {rest : List Char} → t.Grouped ctx →
      t.Keeps ctx depth mark rest → TargetEnds mark rest →
      ReadsDestination ctx mark (t.chars depth) (t.settle depth) rest
  | .identifier name, _, _, grouped, keeps, ends => readsDestination_identifier grouped ends keeps
  | .member object property, mark, rest, ⟨spelled, grouped⟩, keeps, ends => by
    obtain ⟨chain, leads⟩ := readsChain_callee opened keeps grouped
      (fun _ _ grouped keeps ends closes => object.readsBack opened grouped keeps ends closes)
      (ends_dot spelled rest)
    rw [chars_target]
    refine (readsChain_member spelled ends.1.1 chain).destination ?_ rfl ends
    rw [List.append_assoc]
    exact leads
  | .verbatim source names, _, _, _, leaf, _ => leaf
termination_by structural t => t

theorem Function.readsBack {ctx : Context} (opened : ctx.bracketed = ctx) {depth : Nat} :
    (f : Function) → {place : Place} → {rest : List Char} → f.Grouped ctx place →
      f.Keeps ctx depth rest → place.Ends rest →
      (Expression.function f).ReadsBack ctx depth place rest
  | ⟨id, signature, .block body⟩, place, rest, ⟨stands, grouped⟩, ⟨keepsParams, keeps⟩, ends => by
    have lines := Statement.linesReadBack rfl body grouped keeps
    exact readsBack_block opened stands grouped keepsParams
      (readsBody_of_lines lines (blank_blockIndent depth body)) ends
  | ⟨id, signature, .expression value⟩, place, rest, ⟨arrow, stands, grouped⟩,
      ⟨keepsParams, keeps⟩, ends => by
    have whole : place.isWhole = true := by
      rw [Signature.Stands, if_pos arrow] at stands
      exact stands.1
    refine readsBack_concise opened ⟨arrow, stands, grouped⟩ keepsParams ?_ ends
    exact readsArrowBody_of_keeps opened grouped keeps
      (fun _ _ grouped keeps ends closes =>
        value.readsBack (bracketed_arrow opened _) grouped keeps ends closes) (ends.endsWhole whole)
termination_by structural f => f

theorem Statement.readsBack {ctx : Context} (opened : ctx.bracketed = ctx) :
    (s : Statement) → {depth : Nat} → {isSingle isFirst : Bool} → {exports : List String} →
      {rest : List Char} → s.Grouped ctx isSingle →
      s.Keeps ctx depth isSingle isFirst exports rest → (s.isOpen = true → NoElse rest) →
      ReadsStatement ctx isSingle isFirst (s.chars depth) (s.settle depth) exports rest
  | .declaration kind ds, depth, isSingle, isFirst, _, rest, ⟨alone, nonempty, complete, grouped⟩,
      ⟨rfl, keeps⟩, _ => by
    have all := Declarator.allReadBack opened ds grouped keeps rfl
    match ds, nonempty, all with
    | ⟨pattern, init⟩ :: ds, _, all =>
      rw [← all_isComplete_settle depth, settleAll_declarators] at complete
      rw [chars_declaration, Statement.settle, settleAll_declarators]
      exact readsStatement_declaration all.1 (readsDeclaratorTails_of_all depth rfl ds all.2)
        complete alone
  | .function f, depth, isSingle, isFirst, _, rest, grouped, ⟨rfl, keeps⟩, _ =>
    f.readsStatement opened grouped keeps
  | .expression e, depth, isSingle, isFirst, _, rest, grouped, ⟨rfl, keeps⟩, _ =>
    readsStatement_of_keeps opened grouped keeps fun _ _ grouped keeps ends closes =>
      e.readsBack opened grouped keeps ends closes
  | .block id body, depth, isSingle, isFirst, _, rest, grouped, ⟨rfl, keeps⟩, _ => by
    rw [chars_block]
    exact readsStatement_block (Statement.linesReadBack opened body grouped keeps)
      (blank_blockIndent depth body)
  | .conditional test consequent none, depth, isSingle, isFirst, _, rest,
      ⟨groupedTest, groupedBranch⟩, ⟨rfl, keepsTest, keepsBranch⟩, noElse => by
    have ended : Place.sequence.Ends
        (')' :: ([' '] ++ (branchText depth consequent ++ rest))) := rfl
    have reads := test.readsBack opened groupedTest keepsTest ended (ended.closes rfl ctx test)
    obtain ⟨exports, branch⟩ := readsStatement_branch keepsBranch groupedBranch
      (fun _ => noElse rfl) fun _ _ _ grouped ⟨exports, keeps⟩ noElse =>
        ⟨exports, consequent.readsBack opened grouped keeps noElse⟩
    rw [chars_conditional]
    exact readsStatement_if (opened.symm ▸ reads.reads) branch (noElse rfl)
  | .conditional test consequent (some alternate), depth, isSingle, isFirst, _, rest,
      ⟨groupedTest, groupedBranch, closed, groupedOther⟩,
      ⟨rfl, keepsTest, keepsBranch, keepsOther⟩, noElse => by
    have ended : Place.sequence.Ends (')' :: ([' '] ++ (branchText depth consequent ++
      elseText (branchText depth alternate ++ rest)))) := rfl
    have reads := test.readsBack opened groupedTest keepsTest ended (ended.closes rfl ctx test)
    obtain ⟨exports, branch⟩ := readsStatement_branch keepsBranch groupedBranch
      (fun isOpen => absurd isOpen (by simp [closed])) fun _ _ _ grouped ⟨exports, keeps⟩ noElse =>
        ⟨exports, consequent.readsBack opened grouped keeps noElse⟩
    obtain ⟨exports', branch'⟩ := readsStatement_branch keepsOther groupedOther noElse
      fun _ _ _ grouped ⟨exports, keeps⟩ noElse =>
        ⟨exports, alternate.readsBack opened grouped keeps noElse⟩
    rw [chars_conditional_else]
    exact readsStatement_ifElse (opened.symm ▸ reads.reads) branch branch'
  | .result none, depth, isSingle, isFirst, _, rest, returns, keeps, _ => by
    cases keeps
    rw [chars_return]
    exact readsStatement_return returns
  | .result (some value), depth, isSingle, isFirst, _, rest, ⟨returns, grouped⟩,
      ⟨rfl, keeps, atOnce⟩, _ => by
    have ended : Place.sequence.Ends (';' :: rest) := rfl
    have reads := value.readsBack opened grouped keeps ended (ended.closes rfl ctx value)
    rw [chars_result]
    refine readsStatement_result returns (opened.symm ▸ reads.reads) ?_
    cases opener : value.opener with
    | none => exact atOnce opener
    | some kind =>
      obtain ⟨after, opens⟩ := (value.begins depth (';' :: rest) grouped opener rfl).opens
      exact atOnce_of_opens opens
  | .labeled label body, depth, isSingle, isFirst, _, rest, ⟨named, grouped⟩,
      ⟨rfl, double, exports, keeps⟩, noElse => by
    have reads := body.readsBack opened grouped keeps noElse
    rw [chars_labeled]
    cases plain : isDouble label with
    | true => exact readsStatement_labeled (double plain).1 (opened.symm ▸ (double plain).2) reads
    | false =>
      have ended : Place.sequence.Ends (':' :: ' ' :: (body.chars depth ++ rest)) := rfl
      have name : (Expression.identifier label).ReadsBack ctx depth .sequence _ :=
        readsBack_identifier named (.inl plain) ended
      exact readsStatement_labeled (leadsStatement_name (isPlainName_of_isNamed named plain) rfl)
        (opened.symm ▸ name.reads) reads
  | .verbatim source references, _, _, _, _, _, _, leaf, _ => leaf
termination_by structural s => s

theorem Function.readsStatement {ctx : Context} (opened : ctx.bracketed = ctx) {depth : Nat} :
    (f : Function) → {isSingle isFirst : Bool} → {rest : List Char} →
      f.GroupedAs ctx isSingle → f.Keeps ctx depth rest →
      ReadsStatement ctx isSingle isFirst (f.chars depth) (.function (f.settle depth)) [] rest
  | ⟨id, signature, .block body⟩, isSingle, isFirst, rest, ⟨declares, stands, grouped⟩,
      ⟨keepsParams, keeps⟩ => by
    have lines := Statement.linesReadBack rfl body grouped keeps
    have reads := readsBody_of_lines lines (blank_blockIndent depth body)
    obtain ⟨readsParams, -⟩ := readsParameters_of_keeps opened keepsParams
    rw [chars_function_block]
    obtain ⟨name, isArrow, isAsync, isGenerator, params, paramNames⟩ := signature
    obtain ⟨isKeyword, isNamed_, alone⟩ := declares
    obtain rfl : isArrow = false := isKeyword
    obtain ⟨name, rfl⟩ : ∃ n, name = some n := Option.isSome_iff_exists.1 isNamed_
    exact readsStatement_function (stands name rfl) readsParams reads alone
  | ⟨_, _, .expression _⟩, _, _, _, grouped, _ => grouped.elim
termination_by structural f => f

theorem Statement.linesReadBack {ctx : Context} (opened : ctx.bracketed = ctx) {depth : Nat} :
    (ss : List Statement) → {isFirst : Bool} → {rest : List Char} → Statement.GroupedAll ctx ss →
      Statement.KeepsAll ctx depth isFirst rest ss →
      ReadsLines ctx isFirst (closedLines depth ss) (Statement.settleAll (depth + 1) ss) rest
  | [], _, _, _, _ => readsLines_nil
  | s :: ss, isFirst, rest, ⟨grouped, more⟩, ⟨⟨exports, keeps⟩, others⟩ => by
    have lines := Statement.linesReadBack opened ss more others
    have first := s.readsBack opened grouped keeps
      fun _ => lines.noElse (blank_lineIndent depth ss).cons_newLine
    exact readsLines_cons first (blank_lineIndent depth ss) lines
termination_by structural ss => ss

theorem Declarator.allReadBack {ctx : Context} (opened : ctx.bracketed = ctx) {depth : Nat} :
    (ds : List Declarator) → {rest : List Char} → Declarator.GroupedAll ctx ds →
      Declarator.KeepsAll ctx depth rest ds → endsSequence rest = true →
      Declarator.AllReadBack ctx depth rest ds
  | [], _, _, _, _ => trivial
  | ⟨pattern, none⟩ :: ds, rest, ⟨binds, more⟩, ⟨keeps, others⟩, ends => by
    have ended := endsWhole_tails depth ds ends
    have binding := readsBinding_of_keeps binds keeps (endsName_of_endsWhole ended)
    exact ⟨readsDeclarator_bare binding ended,
      Declarator.allReadBack opened ds more others ends⟩
  | ⟨pattern, some init⟩ :: ds, rest, ⟨binds, grouped, more⟩, ⟨keeps, keepsInit, others⟩, ends => by
    have ended : Place.whole.Ends (tailsText (Declarator.printAllAt depth ds) ++ rest) :=
      endsWhole_tails depth ds ends
    have value := init.readsBack opened grouped keepsInit ended (ended.closes rfl ctx init)
    exact ⟨readsDeclarator_init (readsBinding_of_keeps binds keeps rfl) value.reads,
      Declarator.allReadBack opened ds more others ends⟩
termination_by structural ds => ds

end

end ReactiveMarkup.Script
