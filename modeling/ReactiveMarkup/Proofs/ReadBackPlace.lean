import ReactiveMarkup.Proofs.KeptText

/-!
# Reading back in places

An expression is read back in the tightest place it may stand in, and so in all looser ones, if what
follows ends it there. From this come the places inside a tree: the object of an access, the items
between parentheses, the target of an assignment.
-/

namespace ReactiveMarkup.Script

open Reader

/-! ## What ends an expression in a place -/

/-- Whether a text ends an operand. -/
def EndsOperand (rest : List Char) : Prop :=
  ∃ kind, Follows rest kind ∧ stopsOperand kind = true

/-- Whether a text ends an expression in a place, apart from operators. -/
def Place.Ends (rest : List Char) : Place → Prop
  | .chain => endsName rest = true ∧ NoArrow rest
  | .operand _ => endsName rest = true ∧ NoArrow rest ∧ EndsOperand rest
  | .whole => endsWhole rest = true
  | .argument => endsItem rest
  | .sequence => endsSequence rest = true

/-- Whether an operator does not go on in a text. -/
def Expression.Closes (ctx : Context) (rest : List Char) (e : Expression) : Prop :=
  ∀ operator, e.operator? = some operator → StopsOperation ctx (operatorLevel operator) rest

section

variable {rest : List Char}

theorem endsWhole_of_endsItem (ends : endsItem rest) : endsWhole rest = true := by
  cases rest with
  | nil => rcases ends with ends | ends <;> cases ends
  | cons c rest =>
    rcases ends with ends | ends <;> simp only [List.head?_cons, Option.some.injEq] at ends <;>
      subst ends <;> rfl

theorem Place.Ends.endsWhole {place : Place} (ends : place.Ends rest)
    (whole : place.isWhole = true) : endsWhole rest = true := by
  cases place with
  | chain => cases whole
  | operand level => cases whole
  | whole => exact ends
  | argument => exact endsWhole_of_endsItem ends
  | sequence => exact endsWhole_of_endsSequence ends

theorem endsName_of_endsWhole (ends : endsWhole rest = true) : endsName rest = true := by
  cases rest with
  | nil => rfl
  | cons c rest =>
    simp only [Script.endsWhole, List.contains_eq_mem, List.mem_cons, List.not_mem_nil, or_false,
      decide_eq_true_eq] at ends
    rcases ends with rfl | rfl | rfl | rfl <;> rfl

theorem noArrow_of_shows {kind : TokenKind} {start after : List Char} {newLine : Bool}
    (h : Shows rest kind start after newLine) (other : kind ≠ .punctuator "=>") : NoArrow rest := by
  intro total room
  rw [h total room]
  exact beq_eq_false_iff_ne.2 other

theorem noArrow_of_endsWhole (ends : endsWhole rest = true) : NoArrow rest := by
  obtain ⟨mark, known, start, after, h⟩ := follows_of_endsWhole ends
  refine noArrow_of_shows h fun eq => ?_
  obtain rfl := TokenKind.punctuator.inj eq
  exact (wholeEnds_known "=>" known).2.2.2.2 rfl

theorem endsOperand_of_endsWhole (ends : endsWhole rest = true) : EndsOperand rest := by
  obtain ⟨mark, known, follows⟩ := follows_of_endsWhole ends
  exact ⟨_, follows, (wholeEnds_known mark known).2.1⟩

section

variable {place : Place} (ends : place.Ends rest)
include ends

theorem Place.Ends.endsName : endsName rest = true := by
  cases whole : place.isWhole with
  | true => exact endsName_of_endsWhole (ends.endsWhole whole)
  | false =>
    cases place with
    | chain => exact ends.1
    | operand level => exact ends.1
    | _ => cases whole

theorem Place.Ends.noArrow : NoArrow rest := by
  cases whole : place.isWhole with
  | true => exact noArrow_of_endsWhole (ends.endsWhole whole)
  | false =>
    cases place with
    | chain => exact ends.2
    | operand level => exact ends.2.1
    | _ => cases whole

theorem Place.Ends.endsOperand (inner : place ≠ .chain) : EndsOperand rest := by
  cases whole : place.isWhole with
  | true => exact endsOperand_of_endsWhole (ends.endsWhole whole)
  | false =>
    cases place with
    | chain => exact absurd rfl inner
    | operand level => exact ends.2.2
    | _ => cases whole

/-- Where a whole expression ends, operators do not go on. -/
theorem Place.Ends.closes (whole : place.isWhole = true) (ctx : Context) (e : Expression) :
    e.Closes ctx rest :=
  fun operator _ => stopsOperation_of_endsWhole (ends.endsWhole whole) ctx (operatorLevel operator)

end

end

/-! ### Operators -/

section

variable {operator : String} (known : operator ∈ operatorMarks ++ operatorWords)
include known

/-- What an operator follows is an operand. -/
theorem ends_operand_operator (level : Nat) (rest : List Char) :
    (Place.operand level).Ends (' ' :: (operator.toList ++ ' ' :: rest)) := by
  obtain ⟨kind, h, token⟩ := shows_operator (show Context.topLevel.allowsIn = true from rfl) known
    rest
  refine ⟨rfl, noArrow_of_shows h ?_, kind, ⟨_, _, h⟩, token.stops⟩
  rintro rfl
  cases token.operator ⟨.punctuator "=>", ⟨[], 0⟩, ⟨[], 0⟩, false⟩ rfl

/-- An operand that ends before an operator. -/
theorem closes_before_operator {ctx : Context} (allowsIn : ctx.allowsIn = true) {e : Expression}
    (closes : e.ClosesBefore operator) (rest : List Char) :
    e.Closes ctx (' ' :: (operator.toList ++ ' ' :: rest)) := by
  intro inner isInner
  obtain ⟨kind, h, token⟩ := shows_operator allowsIn known rest
  refine ⟨kind, ⟨_, _, h⟩, token.stops, fun t isKind => ?_⟩
  have found := token.operator t isKind
  have noWord : ∀ word, word ≠ "in" → word ≠ "instanceof" → t.isWord word = false := by
    intro word notIn notInstance
    cases eq : t.kind with
    | word text escaped =>
      rw [Token.isWord, eq]
      refine beq_eq_false_iff_ne.2 ?_
      rintro rfl
      unfold operator? at found
      rw [eq] at found
      split at found
      · rename_i other
        cases other
      · rename_i other
        exact notInstance (TokenKind.word.inj other).1
      · rename_i other
        exact notIn (TokenKind.word.inj other).1
      · cases found
    | _ => simp [Token.isWord, eq]
  refine ⟨noWord "as" (by decide) (by decide), noWord "satisfies" (by decide) (by decide), ?_⟩
  intro other isOther
  rw [found] at isOther
  cases isOther
  exact closes inner isInner

end

/-- Operators that end before a text, among tighter ones. -/
theorem StopsOperation.mono {ctx : Context} {level level' : Nat} {rest : List Char}
    (stops : StopsOperation ctx level rest) (le : level ≤ level') :
    StopsOperation ctx level' rest := by
  obtain ⟨kind, follows, operand, stops⟩ := stops
  refine ⟨kind, follows, operand, fun t isKind => ?_⟩
  obtain ⟨isAs, isSatisfies, stops⟩ := stops t isKind
  refine ⟨isAs, isSatisfies, fun operator found => ?_⟩
  have stopped := stops operator found
  simp only [bindsWithin, Bool.or_eq_false_iff, decide_eq_false_iff_not, Bool.and_eq_false_iff,
    beq_eq_false_iff_ne] at stopped ⊢
  refine ⟨by omega, ?_⟩
  rcases stopped.2 with other | other
  · exact .inl other
  · exact .inr (by omega)

theorem le_of_bindsWithin {operator : String × Nat} {level : Nat}
    (binds : bindsWithin operator level = true) : level ≤ operator.2 := by
  simp only [bindsWithin, Bool.or_eq_true, decide_eq_true_eq, Bool.and_eq_true, beq_iff_eq] at binds
  omega

/-- What ends an operation ends its right operand. -/
theorem closes_right {ctx : Context} {operator : String} {right : Expression}
    {rest : List Char} (grouped : right.Grouped ctx (.operand (operatorLevel operator)))
    (stops : StopsOperation ctx (operatorLevel operator) rest) : right.Closes ctx rest := by
  intro inner isInner
  cases right with
  | binary left inner' right =>
    cases isInner
    exact stops.mono (le_of_bindsWithin grouped.2.2.1)
  | _ => cases isInner

/-! ## From tight places to looser ones -/

/-- Whether an expression is read back in a place. Where arguments in parentheses may be taken for
parameters, they end as they do as items. -/
structure Expression.ReadsBack (ctx : Context) (depth : Nat) (place : Place) (rest : List Char)
    (e : Expression) : Prop where
  reads : place.Reads ctx (e.chars depth) (e.settle depth) rest
  leads : place.isWhole = false → LeadsWhole ctx (e.chars depth ++ rest)
  wary : place = .whole → e.opener ≠ none → endsItem rest → Wary ctx (e.chars depth) rest
  ends : place = .sequence → ∀ after, rest = ')' :: after →
    Expression.WaryAll ctx depth rest e.items → EndsParameters ctx (e.chars depth) after

section

variable {ctx : Context} {depth : Nat} {place : Place} {rest : List Char} {e : Expression}

/-- One item alone that ends as an item does ends the parameters. -/
theorem endsParameters_single (single : e.items = [e])
    (wary : e.opener ≠ none → endsItem rest → Wary ctx (e.chars depth) rest) {after : List Char}
    (eq : rest = ')' :: after) (all : Expression.WaryAll ctx depth rest e.items) :
    EndsParameters ctx (e.chars depth) after := by
  subst eq
  rw [single] at all
  refine endsParameters_last ?_
  by_cases shown : e.opener = none
  · exact all.1 shown
  · exact wary shown (.inl rfl)

theorem Expression.ReadsBack.of_whole (looks : place.isWhole = true) (single : e.items = [e])
    (whole : ReadsWhole ctx (e.chars depth) (e.settle depth) rest)
    (wary : e.opener ≠ none → endsItem rest → Wary ctx (e.chars depth) rest)
    (ends : place.Ends rest) : e.ReadsBack ctx depth place rest := by
  refine ⟨?_, by simp [looks], fun _ => wary,
    fun _ after eq => endsParameters_single single wary eq⟩
  cases place with
  | chain => cases looks
  | operand level => cases looks
  | whole => exact whole
  | argument => exact whole.argument
  | sequence => exact whole.sequence ends

theorem Expression.ReadsBack.of_operands (inner : place ≠ .chain) (single : e.items = [e])
    (operands : ReadsOperands ctx place.level (e.chars depth) (e.settle depth) rest)
    (leads : LeadsWhole ctx (e.chars depth ++ rest))
    (wary : e.opener ≠ none → endsItem rest → Wary ctx (e.chars depth) rest)
    (ends : place.Ends rest) : e.ReadsBack ctx depth place rest := by
  cases looks : place.isWhole with
  | true =>
    have zero : place.level = 0 := by
      cases place with
      | operand level => cases looks
      | _ => rfl
    rw [zero] at operands
    exact .of_whole looks single (operands.whole leads (ends.endsWhole looks)) wary ends
  | false =>
    cases place with
    | chain => exact absurd rfl inner
    | operand level => exact ⟨operands, fun _ => leads, nofun, nofun⟩
    | _ => cases looks

theorem Expression.ReadsBack.of_chain (single : e.items = [e])
    (chain : ReadsChain ctx (e.chars depth) (e.settle depth) rest)
    (leads : LeadsWhole ctx (e.chars depth ++ rest))
    (wary : e.opener ≠ none → endsItem rest → Wary ctx (e.chars depth) rest)
    (ends : place.Ends rest) : e.ReadsBack ctx depth place rest := by
  by_cases inner : place = .chain
  · subst inner
    exact ⟨chain, fun _ => leads, nofun, nofun⟩
  · obtain ⟨kind, follows, stops⟩ := ends.endsOperand inner
    exact .of_operands inner single (chain.operands follows stops _) leads wary ends

/-- Verbatim text. -/
theorem Expression.ReadsBack.of_leaf (single : e.items = [e]) (loose : e.opener = none)
    (leaf : place.ReadsLeaf ctx (e.chars depth) (e.settle depth) rest) :
    e.ReadsBack ctx depth place rest :=
  ⟨leaf.1, leaf.2, fun _ shown => absurd loose shown, fun _ _ eq =>
    endsParameters_single single (fun shown => absurd loose shown) eq⟩

/-- What starts with a word that is no parameter, or with a mark, is taken for none. -/
theorem Expression.wary_of_firm (grouped : e.Grouped ctx place) (ends : place.Ends rest)
    (firm : e.FirmBefore rest) (shown : e.opener ≠ none) (_ : endsItem rest) :
    Wary ctx (e.chars depth) rest := by
  obtain ⟨kind, opener⟩ := Option.ne_none_iff_exists'.1 shown
  exact (e.begins depth rest grouped opener ends.endsName).wary firm

end

/-! ## Parentheses -/

section

variable {ctx : Context} (opened : ctx.bracketed = ctx) {depth : Nat} {rest : List Char}
  {e : Expression}
include opened

/-- An expression between parentheses. -/
theorem Expression.ReadsBack.parenthesized (inner : e.ReadsBack ctx depth .sequence (')' :: rest))
    (wary : Expression.WaryAll ctx depth (')' :: rest) e.items) (noArrow : NoArrow rest) :
    ReadsChain ctx ('(' :: (e.chars depth ++ [')'])) (.parenthesized (e.settle depth)) rest ∧
      LeadsWhole ctx ('(' :: (e.chars depth ++ [')']) ++ rest) := by
  have reads : ReadsSequence ctx.bracketed (e.chars depth) (e.settle depth) (')' :: rest) := by
    rw [opened]
    exact inner.reads
  have ends : EndsParameters ctx.bracketed (e.chars depth) rest := by
    rw [opened]
    exact inner.ends rfl rest rfl wary
  refine ⟨readsChain_parenthesized reads, ?_⟩
  have leads := leadsWhole_parenthesized reads ends noArrow
  simpa using leads

/-- An expression before an access or a call. -/
theorem readsChain_callee {keeps : Place → List Char → Prop}
    (kept : KeptCallee ctx depth rest e keeps) (grouped : e.Grouped ctx e.calleePlace)
    (reads : ∀ place rest, e.Grouped ctx place → keeps place rest → place.Ends rest →
      e.Closes ctx rest → e.ReadsBack ctx depth place rest)
    (ends : Place.chain.Ends rest) :
    ReadsChain ctx (e.calleeChars depth) (settledCallee e (e.settle depth)) rest ∧
      LeadsWhole ctx (e.calleeChars depth ++ rest) := by
  unfold KeptCallee at kept
  unfold Expression.calleePlace at grouped
  unfold Expression.calleeChars settledCallee
  cases chain : e.isChain with
  | true =>
    simp only [chain, if_true] at kept grouped ⊢
    have closes : e.Closes ctx rest := by
      intro operator isOperator
      cases e with
      | binary left op right => cases chain
      | _ => cases isOperator
    have inner := reads .chain rest grouped kept ends closes
    exact ⟨inner.reads, inner.leads rfl⟩
  | false =>
    simp only [chain, Bool.false_eq_true, if_false] at kept grouped ⊢
    have ended : Place.sequence.Ends (')' :: rest) := rfl
    have inner := reads .sequence (')' :: rest) grouped kept.1 ended (ended.closes rfl ctx e)
    exact inner.parenthesized opened kept.2 ends.2

end

/-! ## Targets -/

/-- Whether a text ends the target of an assignment with a mark, or of an update. -/
def TargetEnds (mark : Option String) (rest : List Char) : Prop :=
  (endsName rest = true ∧ NoArrow rest) ∧
    match mark with
    | some mark => mark ∈ assignmentMarks ∧ ∃ more, rest = ' ' :: (mark.toList ++ ' ' :: more)
    | none => ∃ kind, Follows rest kind ∧ stopsChain kind = true

/-- The mark of an assignment ends the target before it. -/
theorem targetEnds_assignment {mark : String} (known : mark ∈ assignmentMarks) (rest : List Char) :
    TargetEnds (some mark) (' ' :: (mark.toList ++ ' ' :: rest)) := by
  obtain ⟨punctuator, -⟩ := assignmentMarks_known mark known
  refine ⟨⟨rfl, noArrow_of_shows ((markAt_blank punctuator rest).shows Blank.space) ?_⟩, known,
    rest, rfl⟩
  intro eq
  obtain rfl := TokenKind.punctuator.inj eq
  exact absurd known (by decide)

/-- The mark of an update ends the target before it. -/
theorem targetEnds_update {mark : String} (known : mark ∈ updateMarks) (rest : List Char) :
    TargetEnds none (mark.toList ++ rest) := by
  have h := (markAt_closed (updateMark_closed known) rest).shows Blank.nil
  simp only [updateMarks, List.mem_cons, List.not_mem_nil, or_false] at known
  rcases known with rfl | rfl
  · exact ⟨⟨rfl, noArrow_of_shows h (by decide)⟩, _, ⟨_, _, h⟩, rfl⟩
  · exact ⟨⟨rfl, noArrow_of_shows h (by decide)⟩, _, ⟨_, _, h⟩, rfl⟩

/-- A chain that can be written to. -/
theorem ReadsChain.destination {ctx : Context} {piece rest : List Char} {tree : Expression}
    (chain : ReadsChain ctx piece tree rest) (leads : LeadsWhole ctx (piece ++ rest))
    {target : Target} (isTarget : tree.asTarget? = some target) {mark : Option String}
    (ends : TargetEnds mark rest) : ReadsDestination ctx mark piece target rest := by
  refine ⟨?_, leads⟩
  cases mark with
  | none =>
    obtain ⟨-, kind, follows, stops⟩ := ends
    exact chain.place isTarget follows stops
  | some mark =>
    obtain ⟨-, known, more, rfl⟩ := ends
    obtain ⟨kind, follows, stops, -⟩ : StopsOperation ctx 0 (' ' :: (mark.toList ++ ' ' :: more)) :=
      stopsOperation_of_assignment known ctx 0
    exact (chain.operands follows stops 0).target known isTarget

/-! ## Items -/

/-- Whether some expressions with commas between them are read back. -/
def Expression.AllReadBack (ctx : Context) (depth : Nat) (place : Place) (rest : List Char) :
    List Expression → Prop
  | [] => True
  | e :: es =>
    e.ReadsBack ctx depth place (tailsText (Expression.printAllAt depth es) ++ rest) ∧
      Expression.AllReadBack ctx depth place rest es

section

variable {ctx : Context} {depth : Nat} {rest : List Char}

theorem tailsText_cons (e : Expression) (es : List Expression) :
    tailsText (Expression.printAllAt depth (e :: es)) =
      ',' :: ' ' :: (e.chars depth ++ tailsText (Expression.printAllAt depth es)) := by
  simp [tailsText, Expression.printAllAt, Expression.chars]

theorem closedList_cons (e : Expression) (es : List Expression) :
    closedList (Expression.printAllAt depth (e :: es)) =
      e.chars depth ++ (tailsText (Expression.printAllAt depth es) ++ [')']) := rfl

theorem closedList_tails (e next : Expression) (es : List Expression) :
    e.chars depth ++ ',' :: ' ' :: closedList (Expression.printAllAt depth (next :: es)) =
      closedList (Expression.printAllAt depth (e :: next :: es)) := by
  rw [closedList_cons, closedList_cons, tailsText_cons]
  simp

/-- The arguments of a call. -/
theorem readsArguments_of_all : (es : List Expression) →
    Expression.AllReadBack ctx depth .argument (')' :: rest) es →
    ReadsArguments ctx (closedList (Expression.printAllAt depth es))
      (Expression.settleAll depth es) rest
  | [], _ => readsArguments_nil
  | [e], ⟨first, _⟩ => readsArguments_last first.reads
  | e :: next :: es, ⟨first, more⟩ => by
    have others := readsArguments_of_all (next :: es) more
    have reads : ReadsArgument ctx (e.chars depth) (e.settle depth)
        (',' :: ' ' :: (closedList (Expression.printAllAt depth (next :: es)) ++ rest)) := by
      have reads := first.reads
      rw [tailsText_cons] at reads
      simpa [Place.Reads, closedList_cons] using reads
    have all := readsArguments_cons reads others
    rwa [closedList_tails] at all

/-- The items of a sequence behind the first one. -/
theorem readsTails_of_all (ends : endsSequence rest = true) : (es : List Expression) →
    Expression.AllReadBack ctx depth .whole rest es →
    ReadsTails ctx (tailsText (Expression.printAllAt depth es)) (Expression.settleAll depth es) rest
  | [], _ => readsTails_nil ends
  | e :: es, ⟨first, more⟩ => by
    rw [tailsText_cons]
    exact readsTails_cons first.reads (readsTails_of_all ends es more)

/-- The items of a sequence between parentheses end where its parameters would. -/
theorem endsParameters_of_all {after : List Char} : (e : Expression) → (es : List Expression) →
    Expression.AllReadBack ctx depth .whole (')' :: after) (e :: es) →
    Expression.WaryAll ctx depth (')' :: after) (e :: es) →
    EndsParameters ctx (e.chars depth ++ tailsText (Expression.printAllAt depth es)) after
  | e, [], ⟨first, _⟩, ⟨wary, _⟩ => by
    rw [show tailsText (Expression.printAllAt depth []) = [] from rfl, List.append_nil]
    refine endsParameters_last ?_
    by_cases shown : e.opener = none
    · exact wary shown
    · exact first.wary rfl shown (.inl rfl)
  | e, next :: es, ⟨first, more⟩, ⟨wary, others⟩ => by
    have isWary : Wary ctx (e.chars depth)
        (tailsText (Expression.printAllAt depth (next :: es)) ++ ')' :: after) := by
      by_cases shown : e.opener = none
      · exact wary shown
      · exact first.wary rfl shown (.inr (by rw [tailsText_cons]; rfl))
    rw [tailsText_cons] at isWary ⊢
    refine endsParameters_cons (by simpa using isWary) ?_
    exact endsParameters_of_all next es more others

end

end ReactiveMarkup.Script
