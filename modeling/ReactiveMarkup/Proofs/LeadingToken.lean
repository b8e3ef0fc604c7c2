import ReactiveMarkup.Proofs.PrintedTree

/-!
# The token that a tree starts with

Where a tree starts with a name that is nothing but a name, with a keyword or with a mark of its
own, the first token of its text is known (`Expression.opener`). It is not known where the tree
starts with verbatim text.

A text that starts so is taken for a parameter only if it is a name alone, or a plain assignment to
a name.
-/

namespace ReactiveMarkup.Script

/-! ## Openers -/

/-- The token that a function starts with. -/
def Signature.opener (s : Signature) : TokenKind :=
  if s.isAsync then .word "async" false
  else if s.isArrow then .punctuator "("
  else .word "function" false

mutual

/-- The token that an expression starts with, if the tree shows it. -/
def Expression.opener : Expression → Option TokenKind
  | .identifier name => if isPlainName name then some (.word name false) else none
  | .binary left _ _ => left.opener
  | .assignment _ target _ => target.opener
  | .update mark leading target => if leading then some (.punctuator mark) else target.opener
  | .call function _ _ => if function.isChain then function.opener else some (.punctuator "(")
  | .member object _ _ => if object.isChain then object.opener else some (.punctuator "(")
  | .parenthesized _ => some (.punctuator "(")
  | .sequence [] => none
  | .sequence (first :: _) => first.opener
  | .function ⟨_, signature, _⟩ => some signature.opener
  | .verbatim _ _ => none
termination_by structural e => e

/-- The token that the target of an assignment or an update starts with, if the tree shows it. -/
def Target.opener : Target → Option TokenKind
  | .identifier name => if isPlainName name then some (.word name false) else none
  | .member object _ => if object.isChain then object.opener else some (.punctuator "(")
  | .verbatim _ _ => none
termination_by structural t => t

end

/-! ## Texts that start with a known token -/

/-- Whether what follows a word shows that the word is no parameter. -/
def Firm (rest : List Char) : Prop :=
  ∃ kind, Follows rest kind ∧ ∀ mark ∈ ["=", ")", ","], kind ≠ .punctuator mark

/-- Whether a text starts with a token of an opening mark or of a word. What follows the word is
firm under a condition. -/
def Begins (kind : TokenKind) (text : List Char) (firm : Prop) : Prop :=
  (∃ mark after, kind = .punctuator mark ∧ mark ∈ ["(", "++", "--"] ∧ Opens text kind after) ∨
    ∃ word more, kind = .word word false ∧ isSpelled word = true ∧ text = word.toList ++ more ∧
      endsName more = true ∧ (firm → Firm more)

section

variable {kind : TokenKind} {text : List Char} {firm firm' : Prop}

theorem Begins.imp (begins : Begins kind text firm) (weaker : firm' → firm) :
    Begins kind text firm' := by
  rcases begins with mark | ⟨word, more, isWord, spelled, eq, ends, follows⟩
  · exact .inl mark
  · exact .inr ⟨word, more, isWord, spelled, eq, ends, fun h => follows (weaker h)⟩

theorem Begins.opens (begins : Begins kind text firm) : ∃ after, Opens text kind after := by
  rcases begins with ⟨mark, after, -, -, opens⟩ | ⟨word, more, rfl, spelled, rfl, ends, -⟩
  · exact ⟨after, opens⟩
  · exact ⟨more, opens_word spelled ends⟩

theorem begins_parenthesis (rest : List Char) : Begins (.punctuator "(") ('(' :: rest) firm :=
  .inl ⟨"(", rest, rfl, by decide, opens_closed "(" '(' (by decide) (by decide) rest⟩

/-- A text that starts with a word that is no parameter, or with a mark, is taken for none. -/
theorem Begins.wary {ctx : Context} {piece rest : List Char}
    (begins : Begins kind (piece ++ rest) firm) (isFirm : firm) : Wary ctx piece rest := by
  rcases begins with ⟨mark, after, rfl, known, opens⟩ | ⟨word, more, -, spelled, eq, ends, follows⟩
  · refine wary_of_mark opens ?_
    simp only [List.mem_cons, List.not_mem_nil, or_false] at known
    rcases known with rfl | rfl | rfl <;> decide
  · obtain ⟨kind, follows, other⟩ := follows isFirm
    exact wary_of_word eq spelled ends follows other

end

/-! ### What follows a name -/

theorem firm_of_shows {rest start after : List Char} {kind : TokenKind}
    (h : Shows rest kind start after false)
    (other : ∀ mark ∈ ["=", ")", ","], kind ≠ .punctuator mark) : Firm rest :=
  ⟨kind, ⟨start, after, h⟩, other⟩

theorem firm_operator {operator : String} (known : operator ∈ operatorMarks ++ operatorWords)
    (rest : List Char) : Firm (' ' :: (operator.toList ++ ' ' :: rest)) := by
  obtain ⟨kind, h, token⟩ := shows_operator (show Context.topLevel.allowsIn = true from rfl)
    known rest
  refine firm_of_shows h fun mark mem eq => ?_
  have found := token.operator ⟨kind, ⟨[], 0⟩, ⟨[], 0⟩, false⟩ rfl
  simp only [List.mem_cons, List.not_mem_nil, or_false] at mem
  rcases mem with rfl | rfl | rfl <;> subst eq <;> cases found

theorem firm_assignment {mark : String} (known : mark ∈ assignmentMarks) (other : mark ≠ "=")
    (rest : List Char) : Firm (' ' :: (mark.toList ++ ' ' :: rest)) := by
  obtain ⟨punctuator, -⟩ := assignmentMarks_known mark known
  refine firm_of_shows ((markAt_blank punctuator rest).shows Blank.space) fun mark' mem eq => ?_
  obtain rfl := TokenKind.punctuator.inj eq
  simp only [List.mem_cons, List.not_mem_nil, or_false, other, false_or] at mem
  rcases mem with rfl | rfl <;> exact absurd known (by decide)

theorem firm_update {mark : String} (known : mark ∈ updateMarks) (rest : List Char) :
    Firm (mark.toList ++ rest) := by
  refine firm_of_shows ((markAt_closed (updateMark_closed known) rest).shows Blank.nil) ?_
  simp only [updateMarks, List.mem_cons, List.not_mem_nil, or_false] at known
  rcases known with rfl | rfl <;> decide

theorem firm_dot {property : String} (spelled : isSpelled property = true) (rest : List Char) :
    Firm ('.' :: (property.toList ++ rest)) :=
  firm_of_shows ((markAt_dot spelled).shows Blank.nil) (by decide)

theorem firm_parenthesis (rest : List Char) : Firm ('(' :: rest) :=
  firm_of_shows (shows_next "(" '(' (by decide) (by decide) rest) (by decide)

theorem firm_name {name : String} (spelled : isSpelled name = true) {rest : List Char}
    (ends : endsName rest = true) : Firm (' ' :: (name.toList ++ rest)) :=
  firm_of_shows (shows_word spelled ends Blank.space) nofun

theorem firm_functionText (isGenerator : Bool) {name : Option String}
    (spelled : ∀ n, name = some n → isSpelled n = true) (more : List Char) :
    Firm (starText isGenerator ++ (nameText name ++ '(' :: more)) := by
  cases isGenerator with
  | true => exact firm_of_shows ((markAt_star name more).shows Blank.nil) (by decide)
  | false =>
    cases name with
    | none => exact firm_parenthesis more
    | some n => exact firm_name (spelled n rfl) rfl

/-! ## Trees -/

/-- A function starts with its keyword, with `async` or with a parenthesis. -/
theorem Signature.begins {s : Signature} {outer : Context} {place : Place}
    (stands : s.Stands outer place) (body rest : List Char) :
    Begins s.opener (s.text body ++ rest) True := by
  obtain ⟨name, isArrow, isAsync, isGenerator, params, paramNames⟩ := s
  have spelled : isArrow = false → ∀ n, name = some n → isSpelled n = true := by
    rintro rfl n rfl
    exact isSpelled_of_isBindable (stands n rfl)
  have tail : Firm (' ' :: ((if isArrow then arrowText (closedList params) body
      else functionText isGenerator name (closedList params) body) ++ rest)) := by
    cases isArrow with
    | true =>
      rw [if_pos rfl, arrowText_append]
      exact firm_of_shows (shows_closed "(" '(' (by decide) (by decide) Blank.space) (by decide)
    | false =>
      rw [if_neg (by decide), functionText_append]
      exact firm_name (by decide) (endsName_starText _ _ _)
  rw [Signature.text, List.append_assoc]
  cases isAsync with
  | true =>
    rw [asyncText_append]
    exact .inr ⟨"async", _, rfl, by decide, rfl, rfl, fun _ => tail⟩
  | false =>
    cases isArrow with
    | true =>
      rw [if_pos rfl, arrowText_append]
      exact begins_parenthesis _
    | false =>
      rw [if_neg Bool.false_ne_true, functionText_append]
      exact .inr ⟨"function", _, rfl, by decide, rfl, endsName_starText _ _ _,
        fun _ => firm_functionText isGenerator (spelled rfl) _⟩

/-- Whether what follows the first word of an expression is firm, given what follows the
expression. -/
def Expression.FirmBefore (rest : List Char) : Expression → Prop
  | .identifier _ => Firm rest
  | .assignment mark (.identifier _) _ => mark ≠ "="
  | .sequence _ => False
  | _ => True

/-- Whether what follows the first word of a target is firm, given what follows the target. -/
def Target.FirmBefore (rest : List Char) : Target → Prop
  | .identifier _ => Firm rest
  | _ => True

theorem Expression.firmBefore_of_inner {ctx : Context} {place : Place} {e : Expression}
    (grouped : e.Grouped ctx place) (inner : place.isWhole = false) {rest : List Char}
    (firm : Firm rest) : e.FirmBefore rest := by
  cases e with
  | identifier name => exact firm
  | assignment mark target right => exact absurd grouped.1 (by simp [inner])
  | sequence items => exact absurd grouped.1 (by rintro rfl; cases inner)
  | _ => trivial

/-- An expression before an access or a call. -/
theorem begins_callee {ctx : Context} {e : Expression} {depth : Nat} {kind : TokenKind}
    {rest : List Char} (grouped : e.Grouped ctx e.calleePlace)
    (opener : (if e.isChain then e.opener else some (.punctuator "(")) = some kind)
    (begins : e.opener = some kind →
      Begins kind (e.chars depth ++ rest) (e.FirmBefore rest)) (firm : Firm rest) :
    Begins kind (e.calleeChars depth ++ rest) True := by
  unfold Expression.calleeChars
  unfold Expression.calleePlace at grouped
  cases chain : e.isChain with
  | true =>
    rw [chain, if_pos rfl] at opener grouped
    rw [if_pos rfl]
    exact (begins opener).imp fun _ => Expression.firmBefore_of_inner grouped rfl firm
  | false =>
    rw [chain, if_neg (by decide)] at opener
    cases opener
    exact begins_parenthesis _

mutual

/-- An expression starts with its opener. -/
theorem Expression.begins {ctx : Context} {place : Place} {kind : TokenKind} (depth : Nat) :
    (e : Expression) → (rest : List Char) → e.Grouped ctx place → e.opener = some kind →
      endsName rest = true → Begins kind (e.chars depth ++ rest) (e.FirmBefore rest)
  | .identifier name, rest, _, opener, ends => by
    rw [Expression.opener] at opener
    split at opener
    · cases opener
      exact .inr ⟨name, rest, rfl, isPlainName_spelled (by assumption), rfl, ends, id⟩
    · cases opener
  | .binary left operator right, rest, ⟨_, known, _, _, grouped, _⟩, opener, _ => by
    have begins := left.begins depth
      (' ' :: (operator.toList ++ ' ' :: (right.chars depth ++ rest))) grouped opener rfl
    rw [chars_binary, List.append_assoc, List.cons_append, List.append_assoc, List.cons_append]
    exact begins.imp fun _ =>
      Expression.firmBefore_of_inner grouped rfl (firm_operator known _)
  | .assignment mark target right, rest, ⟨_, known, grouped, _⟩, opener, _ => by
    have begins := target.begins depth (' ' :: (mark.toList ++ ' ' :: (right.chars depth ++ rest)))
      grouped opener rfl
    rw [chars_assignment, List.append_assoc, List.cons_append, List.append_assoc, List.cons_append]
    refine begins.imp fun firm => ?_
    cases target with
    | identifier name => exact firm_assignment known firm _
    | _ => trivial
  | .update mark true target, rest, ⟨_, known, _⟩, opener, _ => by
    cases opener
    rw [chars_leading, List.append_assoc]
    refine .inl ⟨mark, _, rfl, ?_, opens_mark (markAt_closed (updateMark_closed known) _)⟩
    exact List.mem_cons_of_mem _ known
  | .update mark false target, rest, ⟨_, known, grouped⟩, opener, _ => by
    have ends : endsName (mark.toList ++ rest) = true := by
      simp only [updateMarks, List.mem_cons, List.not_mem_nil, or_false] at known
      rcases known with rfl | rfl <;> rfl
    have begins := target.begins depth (mark.toList ++ rest) grouped opener ends
    rw [chars_trailing, List.append_assoc]
    refine begins.imp fun _ => ?_
    cases target with
    | identifier name => exact firm_update known rest
    | _ => trivial
  | .call function arguments _, rest, ⟨rfl, grouped, _⟩, opener, _ => by
    rw [chars_call, List.append_assoc]
    exact begins_callee grouped opener
      (fun opener => function.begins depth _ grouped opener rfl) (firm_parenthesis _)
  | .member object property _, rest, ⟨rfl, spelled, grouped⟩, opener, _ => by
    rw [chars_member, List.append_assoc]
    exact begins_callee grouped opener
      (fun opener => object.begins depth _ grouped opener rfl) (firm_dot spelled rest)
  | .parenthesized inner, rest, _, opener, _ => by
    cases opener
    rw [chars_parenthesized]
    exact begins_parenthesis _
  | .sequence (first :: []), rest, ⟨_, several, _⟩, _, _ => absurd several (by simp)
  | .sequence (first :: second :: others), rest, ⟨_, _, grouped, _⟩, opener, _ => by
    rw [chars_sequence, List.append_assoc]
    exact (first.begins depth _ grouped opener rfl).imp fun no => no.elim
  | .function ⟨id, signature, .block body⟩, rest, ⟨stands, _⟩, opener, _ => by
    cases opener
    rw [show (Expression.function ⟨id, signature, .block body⟩).chars depth =
      Function.chars depth ⟨id, signature, .block body⟩ from rfl, chars_function_block]
    exact (signature.begins stands _ rest).imp fun _ => trivial
  | .function ⟨id, signature, .expression value⟩, rest, ⟨arrow, stands, _⟩, opener, _ => by
    cases opener
    rw [show (Expression.function ⟨id, signature, .expression value⟩).chars depth =
      Function.chars depth ⟨id, signature, .expression value⟩ from rfl,
      chars_function_concise depth id signature value arrow]
    exact (signature.begins stands _ rest).imp fun _ => trivial
termination_by structural e => e

theorem Target.begins {ctx : Context} {kind : TokenKind} (depth : Nat) :
    (t : Target) → (rest : List Char) → t.Grouped ctx → t.opener = some kind →
      endsName rest = true → Begins kind (t.chars depth ++ rest) (t.FirmBefore rest)
  | .identifier name, rest, _, opener, ends => by
    rw [Target.opener] at opener
    split at opener
    · cases opener
      exact .inr ⟨name, rest, rfl, isPlainName_spelled (by assumption), rfl, ends, id⟩
    · cases opener
  | .member object property, rest, ⟨spelled, grouped⟩, opener, _ => by
    rw [chars_target, List.append_assoc]
    exact begins_callee grouped opener
      (fun opener => object.begins depth _ grouped opener rfl) (firm_dot spelled rest)
termination_by structural t => t

end

end ReactiveMarkup.Script
