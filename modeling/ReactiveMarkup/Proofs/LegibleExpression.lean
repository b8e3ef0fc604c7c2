import ReactiveMarkup.Proofs.EmittedReader

/-!
# Generated expressions read back

What it means that the text of an expression shows the tree (`Expression.ReadsBack`), and for each
kind of expression: if the texts of the parts do, then the text of the whole does.

Accesses and calls stand behind the operand that they belong to, while the reader goes from left to
right. So what is stated of the operand is that the reader comes to the end of its text with the
tree in hand, and goes on from there (`Expression.LeadsOn`).
-/

namespace ReactiveMarkup.Emission

open Filter (atTop)
open Markup (Stops)
open Script (isSpelled tailsText)
open Text (stripLead? isIdentifierPart commaSeparated)

/-! ## Characters -/

/-- The characters of an expression. -/
def Expression.chars (depth : Nat) (e : Expression) : List Char := (e.print depth).toList

/-- The characters of an expression where it stands as an operand. -/
def Expression.operandChars (depth : Nat) (e : Expression) : List Char :=
  if e.isLoose then '(' :: (e.chars depth ++ [')']) else e.chars depth

/-- The characters of some expressions with commas between them. -/
def Expression.listChars (depth : Nat) (items : List Expression) : List Char :=
  (commaSeparated (Expression.printAll depth items)).toList

section

variable (depth : Nat)

theorem toList_operand (e : Expression) :
    (operand e (e.print depth)).toList = e.operandChars depth := by
  unfold operand Expression.operandChars
  split
  · simp [Expression.chars]
  · rfl

theorem chars_text (value : String) :
    (Expression.text value).chars depth = '"' :: (value.toList.flatMap quotedChar ++ ['"']) := by
  simp [Expression.chars, Expression.print, quote, quoted]

theorem chars_array (items : List Expression) :
    (Expression.array items).chars depth = '[' :: (Expression.listChars depth items ++ [']']) := by
  simp [Expression.chars, Expression.print, Expression.listChars]

theorem chars_member (object : Expression) (property : String) :
    (Expression.member object property).chars depth =
      object.operandChars depth ++ '.' :: property.toList := by
  simp [Expression.chars, Expression.print, toList_operand]

theorem chars_index (object key : Expression) :
    (Expression.index object key).chars depth =
      object.operandChars depth ++ '[' :: (key.chars depth ++ [']']) := by
  simp [Expression.chars, Expression.print, toList_operand]

theorem chars_call (callee : Expression) (arguments : List Expression) :
    (Expression.call callee arguments).chars depth =
      callee.operandChars depth ++ '(' :: (Expression.listChars depth arguments ++ [')']) := by
  simp [Expression.chars, Expression.print, toList_operand, Expression.listChars]

theorem chars_assign (target value : Expression) :
    (Expression.assign target value).chars depth =
      target.chars depth ++ ' ' :: '=' :: ' ' :: value.chars depth := by
  simp [Expression.chars, Expression.print]

theorem chars_not (e : Expression) :
    (Expression.unary "!" e).chars depth = '!' :: e.operandChars depth := by
  simp [Expression.chars, Expression.print, toList_operand]

theorem chars_binary (left : Expression) (operator : String) (right : Expression) :
    (Expression.binary left operator right).chars depth =
      left.operandChars depth ++ ' ' :: (operator.toList ++ ' ' :: right.operandChars depth) := by
  simp [Expression.chars, Expression.print, toList_operand]

theorem chars_conditional (test consequent alternate : Expression) :
    (Expression.conditional test consequent alternate).chars depth =
      test.operandChars depth ++ ' ' :: '?' :: ' ' :: (consequent.operandChars depth ++
        ' ' :: ':' :: ' ' :: alternate.operandChars depth) := by
  simp [Expression.chars, Expression.print, toList_operand]

theorem chars_arrow (params : List String) (body : Expression) :
    (Expression.arrow params body).chars depth =
      '(' :: ((commaSeparated params).toList ++
        ')' :: ' ' :: '=' :: '>' :: ' ' :: body.operandChars depth) := by
  simp [Expression.chars, Expression.print, toList_operand]

theorem chars_template (parts : List TemplatePart) :
    (Expression.template parts).chars depth =
      '`' :: ((TemplatePart.printAll depth parts).toList ++ ['`']) := by
  simp [Expression.chars, Expression.print]

theorem listChars_cons (first : Expression) (others : List Expression) :
    Expression.listChars depth (first :: others) =
      first.chars depth ++ tailsText (Expression.printAll depth others) := by
  rw [Expression.listChars, Expression.printAll, Script.toList_commaSeparated, Expression.chars]

end

/-! ## Where the text of an expression ends -/

/-- The characters that may follow an expression. -/
def closers : List Char := [')', ']', ',', ';', '}']

/-- Whether a text may follow an expression. -/
def EndsWhole (rest : List Char) : Prop := ∀ c, rest.head? = some c → c ∈ closers

/-- Whether a text may follow an operand. -/
def EndsOperand (rest : List Char) : Prop := ∀ c, rest.head? = some c → c ∈ ' ' :: closers

theorem endsWhole_cons {c : Char} (closes : c ∈ closers) (rest : List Char) :
    EndsWhole (c :: rest) := by
  rintro d ⟨⟩
  exact closes

theorem endsOperand_blank (rest : List Char) : EndsOperand (' ' :: rest) := by
  rintro d ⟨⟩
  exact List.mem_cons_self

theorem EndsWhole.operand {rest : List Char} (ends : EndsWhole rest) : EndsOperand rest :=
  fun c head => List.mem_cons_of_mem _ (ends c head)

theorem EndsOperand.stops {rest : List Char} (ends : EndsOperand rest) :
    Stops isIdentifierPart rest := by
  have others : ∀ c ∈ ' ' :: closers, isIdentifierPart c = false :=
    List.all_iff_forall_prop.1 (by decide)
  exact fun c head => others c (ends c head)

/-- No access and no call follows. -/
theorem readChain_of_end {rest : List Char} (ends : EndsOperand rest) (depth : Nat)
    (e : Expression) : ∀ᶠ fuel in atTop, readChain fuel depth e rest = some (e, rest) := by
  have other : ∀ c ∈ ['.', '[', '('], rest.head? ≠ some c := by
    intro c link head
    have others : ∀ c ∈ ' ' :: closers, c ∉ ['.', '[', '('] :=
      List.all_iff_forall_prop.1 (by decide)
    exact others c (ends c head) link
  refine eventually_of_succ (.of_forall fun fuel => ?_)
  rw [readChain, if_neg (other _ (by decide)), if_neg (other _ (by decide)),
    if_neg (other _ (by decide))]

/-- No joint follows. -/
theorem joint?_of_end {rest : List Char} (ends : EndsWhole rest) : joint? rest = none := by
  have noBlank : rest.head? ≠ some ' ' := fun head => absurd (ends _ head) (by decide)
  unfold joint?
  split <;> first | rfl | exact absurd rfl noBlank

/-! ## Reading back -/

/-- Whether an expression is a unary operation. -/
def Expression.isUnary : Expression → Bool
  | .unary .. => true
  | _ => false

/-- Whether the reader of operands comes to the end of a piece with an expression in hand and goes
on from there. -/
def Expression.LeadsOn (e : Expression) (depth : Nat) (piece rest : List Char) : Prop :=
  ∀ result, (∀ᶠ fuel in atTop, readChain fuel depth e rest = some result) →
    ∀ᶠ fuel in atTop, readOperand fuel depth (piece ++ rest) = some result

/-- Whether the text of an expression is read as that expression. -/
structure Expression.ReadsBack (e : Expression) : Prop where
  /-- It starts as expressions do. -/
  opens : ∀ depth, Opens (e.chars depth)
  /-- It is read as a whole expression. -/
  whole : ∀ depth rest, EndsWhole rest →
    ∀ᶠ fuel in atTop, readExpression fuel depth (e.chars depth ++ rest) = some (e, rest)
  /-- It is read as an operand. -/
  operand : ∀ depth rest, EndsOperand rest →
    ∀ᶠ fuel in atTop, readOperand fuel depth (e.operandChars depth ++ rest) = some (e, rest)
  /-- It is read as an operand, before the accesses and calls that follow it. -/
  leadsOn : e.isUnary = false → ∀ depth rest, Stops isIdentifierPart rest →
    e.LeadsOn depth (e.operandChars depth) rest

theorem leadsOn_of_head {depth : Nat} {c : Char} {more rest : List Char} {e : Expression}
    (other : c ≠ '!')
    (head : ∀ᶠ fuel in atTop, readHead fuel depth c (more ++ rest) = some (e, rest)) :
    e.LeadsOn depth (c :: more) rest := by
  intro result behind
  refine eventually_of_succ ?_
  filter_upwards [head, behind] with fuel head behind
  rw [List.cons_append, readOperand, if_neg other, head]
  exact behind

theorem opens_operandChars {e : Expression} {depth : Nat} (opens : Opens (e.chars depth)) :
    Opens (e.operandChars depth) := by
  unfold Expression.operandChars
  split
  · exact opens_mark (by decide) _
  · exact opens

section

variable {e : Expression}

/-- An operand that ends alone is read as a whole expression. -/
theorem readExpression_of_operand {depth : Nat} {text rest : List Char} (ends : EndsWhole rest)
    (operand : ∀ᶠ fuel in atTop, readOperand fuel depth text = some (e, rest)) :
    ∀ᶠ fuel in atTop, readExpression fuel depth text = some (e, rest) := by
  refine eventually_of_succ ?_
  filter_upwards [operand] with fuel operand
  rw [readExpression, operand]
  simp [joint?_of_end ends]

/-- An operand without parentheses behind which the reader goes on. -/
theorem readsBack_of_leadsOn (tight : e.isLoose = false) (opens : ∀ depth, Opens (e.chars depth))
    (leadsOn : ∀ depth rest, Stops isIdentifierPart rest →
      e.LeadsOn depth (e.chars depth) rest) : e.ReadsBack := by
  have bare : ∀ depth, e.operandChars depth = e.chars depth := by
    simp [Expression.operandChars, tight]
  have operand : ∀ depth rest, EndsOperand rest →
      ∀ᶠ fuel in atTop, readOperand fuel depth (e.chars depth ++ rest) = some (e, rest) :=
    fun depth rest ends => leadsOn depth rest ends.stops _ (readChain_of_end ends depth e)
  refine ⟨opens, fun depth rest ends => ?_, fun depth rest ends => ?_, fun _ depth rest stops => ?_⟩
  · exact readExpression_of_operand ends (operand depth rest ends.operand)
  · rw [bare]
    exact operand depth rest ends
  · rw [bare]
    exact leadsOn depth rest stops

/-- An expression that gets parentheses as an operand. -/
theorem readsBack_of_whole (loose : e.isLoose = true) (opens : ∀ depth, Opens (e.chars depth))
    (noArrow : ∀ depth rest fuel, readArrow? fuel (e.chars depth ++ ')' :: rest) = none)
    (whole : ∀ depth rest, EndsWhole rest →
      ∀ᶠ fuel in atTop, readExpression fuel depth (e.chars depth ++ rest) = some (e, rest)) :
    e.ReadsBack := by
  have leadsOn : ∀ depth rest, e.LeadsOn depth (e.operandChars depth) rest := by
    intro depth rest
    have text : e.operandChars depth = '(' :: (e.chars depth ++ [')']) := by
      simp [Expression.operandChars, loose]
    rw [text]
    refine leadsOn_of_head (by decide) (eventually_of_succ ?_)
    filter_upwards [whole depth (')' :: rest) (endsWhole_cons (by decide) rest)] with fuel inner
    -- the parentheses that the printer adds are not taken for those of parameters
    rw [readHead]
    simp [noArrow, inner, stripLead?]
  exact ⟨opens, whole, fun depth rest ends => leadsOn depth rest _ (readChain_of_end ends depth e),
    fun _ depth rest _ => leadsOn depth rest⟩

end

/-! ## Heads -/

/-- The head of an operand that is no mark is a number or a name. -/
theorem readHead_of_part {c : Char} (part : isIdentifierPart c = true) (fuel depth : Nat)
    (rest : List Char) :
    readHead (fuel + 1) depth c rest =
      if c.isDigit then some (.number (readNumber (c :: rest)).1, (readNumber (c :: rest)).2)
      else (readName? (c :: rest)).bind fun (name, rest) => some (ofName name, rest) := by
  have ne : ∀ d, isIdentifierPart d = false → c ≠ d := fun _ => ne_of_isIdentifierPart part
  rw [readHead, if_neg (ne _ (by decide)), if_neg (ne _ (by decide)), if_neg (ne _ (by decide)),
    if_neg (ne _ (by decide)), if_neg (ne _ (by decide))]
  rfl

theorem leadsOn_name {name : String} (spelled : isSpelled name = true) (depth : Nat)
    {rest : List Char} (ends : Stops isIdentifierPart rest) :
    (ofName name).LeadsOn depth name.toList rest := by
  obtain ⟨c, more, same, start, -⟩ := Script.exists_cons_of_isSpelled spelled
  have part := isIdentifierPart_of_start start
  have noDigit : c.isDigit = false := (Script.isIdentifierStart_solid start).2.2.2.2
  have read := readName?_append spelled ends
  rw [same, List.cons_append] at read
  rw [same]
  refine leadsOn_of_head (ne_of_isIdentifierPart part (by decide)) ?_
  refine eventually_of_succ (.of_forall fun fuel => ?_)
  rw [readHead_of_part part, if_neg (by simp [noDigit]), read]
  rfl

theorem opens_name {name : String} (spelled : isSpelled name = true) : Opens name.toList := by
  obtain ⟨c, more, same, parts⟩ := exists_cons_of_spelled spelled
  rw [same]
  exact opens_run parts

theorem readsBack_identifier {name : String} (spelled : isSpelled name = true)
    (noTruth : name ≠ "true" ∧ name ≠ "false") : (Expression.identifier name).ReadsBack := by
  refine readsBack_of_leadsOn rfl (fun _ => opens_name spelled) fun depth rest ends => ?_
  have leadsOn := leadsOn_name spelled depth ends
  rwa [ofName, if_neg noTruth.1, if_neg noTruth.2] at leadsOn

theorem readsBack_boolean (value : Bool) : (Expression.boolean value).ReadsBack := by
  cases value with
  | true =>
    have spelled : isSpelled "true" = true := by decide
    exact readsBack_of_leadsOn rfl (fun _ => opens_name spelled) fun depth rest ends =>
      leadsOn_name spelled depth ends
  | false =>
    have spelled : isSpelled "false" = true := by decide
    exact readsBack_of_leadsOn rfl (fun _ => opens_name spelled) fun depth rest ends =>
      leadsOn_name spelled depth ends

theorem readsBack_number (value : Nat) : (Expression.number value).ReadsBack := by
  have chars : ∀ depth, (Expression.number value).chars depth = Nat.toDigits 10 value := fun _ =>
    toList_toString value
  have digits : ∀ c ∈ Nat.toDigits 10 value, c.isDigit = true := fun c mem =>
    Nat.isDigit_of_mem_toDigits (by decide) (by decide) mem
  obtain ⟨c, more, same⟩ := List.exists_cons_of_ne_nil (Nat.toDigits_ne_nil (n := value) (b := 10))
  rw [same] at digits
  refine readsBack_of_leadsOn rfl (fun depth => ?_) fun depth rest ends => ?_
  · rw [chars, same]
    exact opens_run fun d mem => isIdentifierPart_of_isDigit (digits d mem)
  · have digit := digits c List.mem_cons_self
    have part := isIdentifierPart_of_isDigit digit
    have read := readNumber_append value ends
    rw [toList_toString, same, List.cons_append] at read
    rw [chars, same]
    refine leadsOn_of_head (ne_of_isIdentifierPart part (by decide)) ?_
    refine eventually_of_succ (.of_forall fun fuel => ?_)
    rw [readHead_of_part part, if_pos digit, read]

theorem readsBack_text (value : String) : (Expression.text value).ReadsBack := by
  refine readsBack_of_leadsOn rfl (fun depth => ?_) fun depth rest _ => ?_
  · rw [chars_text]
    exact opens_mark (by decide) _
  · rw [chars_text]
    refine leadsOn_of_head (by decide) (eventually_of_succ (.of_forall fun fuel => ?_))
    rw [List.append_assoc, List.singleton_append, readHead, if_pos rfl, readText?_append]
    rfl

/-! ## Lists -/

theorem endsWhole_tails (texts : List String) {closer : Char} (closes : closer ∈ closers)
    (rest : List Char) : EndsWhole (tailsText texts ++ closer :: rest) := by
  cases texts with
  | nil => exact endsWhole_cons closes rest
  | cons text texts => exact endsWhole_cons (by decide) _

section

variable {items : List Expression} {closer : Char}

theorem readItemsBehind_tails (reads : ∀ e ∈ items, e.ReadsBack) (closes : closer ∈ [')', ']'])
    (depth : Nat) (rest : List Char) :
    ∀ᶠ fuel in atTop, readItemsBehind fuel depth closer
      (tailsText (Expression.printAll depth items) ++ closer :: rest) = some (items, rest) := by
  have noComma : ∀ c ∈ [')', ']'], ',' ≠ c ∧ c ∈ closers := List.all_iff_forall_prop.1 (by decide)
  induction items with
  | nil =>
    refine eventually_of_succ (.of_forall fun fuel => ?_)
    rw [readItemsBehind]
    simp [Expression.printAll, tailsText]
  | cons item items ih =>
    have text : tailsText (Expression.printAll depth (item :: items)) ++ closer :: rest =
        [',', ' '] ++ (item.chars depth ++
          (tailsText (Expression.printAll depth items) ++ closer :: rest)) := by
      simp [Expression.printAll, tailsText, Expression.chars]
    refine eventually_of_succ ?_
    filter_upwards [(reads item List.mem_cons_self).whole depth _
        (endsWhole_tails (Expression.printAll depth items) (noComma _ closes).2 rest),
      ih fun e mem => reads e (List.mem_cons_of_mem _ mem)] with fuel first others
    rw [readItemsBehind, text, if_neg (by simpa using (noComma _ closes).1), stripLead?_append]
    simp [first, others]

/-- A list is read back if its items are. -/
theorem readItems_list (reads : ∀ e ∈ items, e.ReadsBack) (closes : closer ∈ [')', ']'])
    (depth : Nat) (rest : List Char) :
    ∀ᶠ fuel in atTop, readItems fuel depth closer
      (Expression.listChars depth items ++ closer :: rest) = some (items, rest) := by
  have known : ∀ c ∈ [')', ']'], c ∈ delimiters ∧ c ∈ closers :=
    List.all_iff_forall_prop.1 (by decide)
  refine eventually_of_succ ?_
  cases items with
  | nil =>
    refine .of_forall fun fuel => ?_
    rw [readItems]
    simp [Expression.listChars, Expression.printAll, commaSeparated]
  | cons item items =>
    have reads_item := reads item List.mem_cons_self
    have open_list := (reads_item.opens depth).head?_ne
      (tailsText (Expression.printAll depth items) ++ closer :: rest) (known _ closes).1
    filter_upwards [reads_item.whole depth _
        (endsWhole_tails (Expression.printAll depth items) (known _ closes).2 rest),
      readItemsBehind_tails (fun e mem => reads e (List.mem_cons_of_mem _ mem)) closes depth rest]
      with fuel first others
    rw [listChars_cons, List.append_assoc, readItems, if_neg open_list]
    simp [first, others]

theorem readsBack_array (reads : ∀ e ∈ items, e.ReadsBack) :
    (Expression.array items).ReadsBack := by
  refine readsBack_of_leadsOn rfl (fun depth => ?_) fun depth rest _ => ?_
  · rw [chars_array]
    exact opens_mark (by decide) _
  · rw [chars_array]
    refine leadsOn_of_head (by decide) (eventually_of_succ ?_)
    filter_upwards [readItems_list reads (by decide : ']' ∈ [')', ']']) depth rest] with fuel inner
    rw [List.append_assoc, List.singleton_append, readHead]
    simp [inner]

end

/-! ## Accesses and calls -/

section

variable {e : Expression} (reads : e.ReadsBack) (notUnary : e.isUnary = false)

include reads notUnary

/-- What stands behind an operand is read with the operand in hand. -/
theorem leadsOn_behind {depth : Nat} {c : Char} {more rest : List Char} {whole : Expression}
    (other : isIdentifierPart c = false)
    (behind : ∀ result, (∀ᶠ fuel in atTop, readChain fuel depth whole rest = some result) →
      ∀ᶠ fuel in atTop, readChain fuel depth e (c :: (more ++ rest)) = some result) :
    whole.LeadsOn depth (e.operandChars depth ++ c :: more) rest := by
  intro result after
  rw [List.append_assoc, List.cons_append]
  exact reads.leadsOn notUnary depth _ (stops_cons other _) _ (behind result after)

theorem readsBack_member {property : String} (spelled : isSpelled property = true) :
    (Expression.member e property).ReadsBack := by
  refine readsBack_of_leadsOn rfl (fun depth => ?_) fun depth rest ends => ?_
  · rw [chars_member]
    exact (opens_operandChars (reads.opens depth)).append (.link (by decide) _)
  · rw [chars_member]
    refine leadsOn_behind reads notUnary (by decide) fun result after => eventually_of_succ ?_
    filter_upwards [after] with fuel after
    rw [readChain]
    simp [readName?_append spelled ends, after]

theorem readsBack_index {key : Expression} (reads_key : key.ReadsBack) :
    (Expression.index e key).ReadsBack := by
  refine readsBack_of_leadsOn rfl (fun depth => ?_) fun depth rest _ => ?_
  · rw [chars_index]
    exact (opens_operandChars (reads.opens depth)).append (.link (by decide) _)
  · rw [chars_index]
    refine leadsOn_behind reads notUnary (by decide) fun result after => eventually_of_succ ?_
    filter_upwards [after, reads_key.whole depth (']' :: rest) (endsWhole_cons (by decide) rest)]
      with fuel after inner
    rw [List.append_assoc, readChain]
    simp [inner, stripLead?, after]

theorem readsBack_call {arguments : List Expression}
    (reads_arguments : ∀ a ∈ arguments, a.ReadsBack) : (Expression.call e arguments).ReadsBack := by
  refine readsBack_of_leadsOn rfl (fun depth => ?_) fun depth rest _ => ?_
  · rw [chars_call]
    exact (opens_operandChars (reads.opens depth)).append (.link (by decide) _)
  · rw [chars_call]
    refine leadsOn_behind reads notUnary (by decide) fun result after => eventually_of_succ ?_
    filter_upwards [after, readItems_list reads_arguments (by decide : ')' ∈ [')', ']']) depth rest]
      with fuel after inner
    rw [List.append_assoc, readChain]
    simp [inner, after]

end

/-! ## Operations -/

theorem readsBack_not {e : Expression} (reads : e.ReadsBack) :
    (Expression.unary "!" e).ReadsBack := by
  have operand : ∀ depth rest, EndsOperand rest →
      ∀ᶠ fuel in atTop, readOperand fuel depth ((Expression.unary "!" e).chars depth ++ rest) =
        some (.unary "!" e, rest) := by
    intro depth rest ends
    refine eventually_of_succ ?_
    filter_upwards [reads.operand depth rest ends] with fuel inner
    rw [chars_not, List.cons_append, readOperand, if_pos rfl, inner]
    rfl
  refine ⟨fun depth => ?_, fun depth rest ends => ?_, operand, fun notUnary => by cases notUnary⟩
  · rw [chars_not]
    exact opens_mark (by decide) _
  · exact readExpression_of_operand ends (operand depth rest ends.operand)

section

variable {left : Expression} (reads : left.ReadsBack)

include reads

/-- What is joined with a left operand starts as this operand does, and no arrow follows when it
stands in parentheses. -/
theorem opens_joint {depth : Nat} {c : Char} (isMark : c ∈ jointMarks) (more : List Char) :
    Opens (left.operandChars depth ++ ' ' :: c :: more) ∧ ∀ rest fuel,
      readArrow? fuel (left.operandChars depth ++ ' ' :: c :: more ++ ')' :: rest) = none := by
  have opens := opens_operandChars (reads.opens depth)
  refine ⟨opens.append (.joint isMark more), fun rest fuel => ?_⟩
  rw [List.append_assoc]
  exact readArrow?_eq_none opens (.joint isMark _) fuel

theorem readsBack_assign (tight : left.isLoose = false) {value : Expression}
    (reads_value : value.ReadsBack) : (Expression.assign left value).ReadsBack := by
  have chars : ∀ depth, (Expression.assign left value).chars depth =
      left.operandChars depth ++ ' ' :: '=' :: ' ' :: value.chars depth := by
    simp [chars_assign, Expression.operandChars, tight]
  refine readsBack_of_whole rfl (fun depth => ?_) (fun depth => ?_) fun depth rest ends => ?_
  · rw [chars]
    exact (opens_joint reads (by decide) _).1
  · rw [chars]
    exact (opens_joint reads (by decide) _).2
  · refine eventually_of_succ ?_
    filter_upwards [reads.operand depth (' ' :: '=' :: ' ' :: (value.chars depth ++ rest))
      (endsOperand_blank _), reads_value.whole depth rest ends] with fuel first second
    rw [chars, List.append_assoc, readExpression]
    simp [first, joint?, second]

theorem readsBack_binary {operator : String} (known : operator = "||" ∨ operator = ">")
    {right : Expression} (reads_right : right.ReadsBack) :
    (Expression.binary left operator right).ReadsBack := by
  have starts : ∃ c more, operator.toList = c :: more ∧ c ∈ jointMarks := by
    rcases known with rfl | rfl <;> exact ⟨_, _, rfl, by decide⟩
  have joined : ∀ rest, joint? (' ' :: (operator.toList ++ ' ' :: rest)) =
      some (.operator operator, rest) := by
    rcases known with rfl | rfl <;> exact fun _ => rfl
  obtain ⟨c, more, same, isMark⟩ := starts
  refine readsBack_of_whole rfl (fun depth => ?_) (fun depth => ?_) fun depth rest ends => ?_
  · rw [chars_binary, same]
    exact (opens_joint reads isMark _).1
  · rw [chars_binary, same]
    exact (opens_joint reads isMark _).2
  · refine eventually_of_succ ?_
    filter_upwards [reads.operand depth (' ' :: (operator.toList ++ ' ' ::
      (right.operandChars depth ++ rest))) (endsOperand_blank _),
      reads_right.operand depth rest ends.operand] with fuel first second
    rw [chars_binary, List.append_assoc, List.cons_append, List.append_assoc, List.cons_append,
      readExpression]
    simp [first, joined, second]

theorem readsBack_conditional {consequent alternate : Expression}
    (reads_consequent : consequent.ReadsBack) (reads_alternate : alternate.ReadsBack) :
    (Expression.conditional left consequent alternate).ReadsBack := by
  refine readsBack_of_whole rfl (fun depth => ?_) (fun depth => ?_) fun depth rest ends => ?_
  · rw [chars_conditional]
    exact (opens_joint reads (by decide) _).1
  · rw [chars_conditional]
    exact (opens_joint reads (by decide) _).2
  · have third := reads_alternate.operand depth rest ends.operand
    have second := reads_consequent.operand depth
      (' ' :: ':' :: ' ' :: (alternate.operandChars depth ++ rest)) (endsOperand_blank _)
    have first := reads.operand depth (' ' :: '?' :: ' ' :: (consequent.operandChars depth ++
      ' ' :: ':' :: ' ' :: (alternate.operandChars depth ++ rest))) (endsOperand_blank _)
    refine eventually_of_succ ?_
    filter_upwards [first, second, third] with fuel first second third
    rw [chars_conditional, List.append_assoc, readExpression]
    simp [first, joint?, second, stripLead?, third]

end

theorem readArrow?_append {params : List String} (spelled : ∀ p ∈ params, isSpelled p = true)
    (rest : List Char) :
    ∀ᶠ fuel in atTop, readArrow? fuel
      ((commaSeparated params).toList ++ ')' :: ' ' :: '=' :: '>' :: ' ' :: rest) =
        some (params, rest) := by
  filter_upwards [readNames_list spelled (' ' :: '=' :: '>' :: ' ' :: rest)] with fuel names
  rw [readArrow?, names]
  simp [stripLead?]

theorem readsBack_arrow {params : List String} (spelled : ∀ p ∈ params, isSpelled p = true)
    {body : Expression} (reads : body.ReadsBack) : (Expression.arrow params body).ReadsBack := by
  refine readsBack_of_whole rfl (fun depth => ?_) (fun depth rest fuel => ?_)
    fun depth rest ends => ?_
  · rw [chars_arrow]
    exact opens_mark (by decide) _
  · -- an arrow function in parentheses starts with two of them, and the second one is no name
    rw [chars_arrow, readArrow?, readNames, if_neg (by simp), List.cons_append,
      readName?_of_other (by decide)]
    rfl
  · rw [chars_arrow]
    refine readExpression_of_operand ends ?_
    refine leadsOn_of_head (by decide) (eventually_of_succ ?_) _
      (readChain_of_end ends.operand depth (.arrow params body))
    filter_upwards [readArrow?_append spelled (body.operandChars depth ++ rest),
      reads.operand depth rest ends.operand] with fuel names inner
    rw [List.append_assoc, readHead]
    simp [names, inner]

end ReactiveMarkup.Emission
