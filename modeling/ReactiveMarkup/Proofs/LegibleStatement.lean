import ReactiveMarkup.Proofs.LegibleBody

/-!
# Generated statements read back

For each kind of statement: if the texts of its expressions and bodies show the trees, then its
lines show the statement. All kinds but the expressions start with a keyword. An expression does
not, not even one that starts with the same word, because behind that word it ends or goes on with
an access, a call or a joint.
-/

namespace ReactiveMarkup.Emission

open Filter (atTop)
open Script (isSpelled)
open Text (stripLead? isIdentifierPart indentation commaSeparated)

/-! ## Keywords -/

/-- Whether a text can stand behind a keyword and its space. -/
def FollowsKeyword (text : List Char) : Prop := ∃ c more, text = c :: more ∧ c ∉ jointMarks

theorem followsKeyword_name {name : String} (spelled : isSpelled name = true) (more : List Char) :
    FollowsKeyword (name.toList ++ more) := by
  obtain ⟨c, inner, same, parts⟩ := exists_cons_of_spelled spelled
  have other := not_mem_delimiters (parts c List.mem_cons_self)
  exact ⟨c, inner ++ more, by rw [same, List.cons_append], fun mem =>
    other (List.mem_append_right _ mem)⟩

theorem followsKeyword_expression {piece : List Char} (opens : Opens piece) (more : List Char) :
    FollowsKeyword (piece ++ more) := by
  obtain ⟨c, inner, rfl, start, -⟩ := opens
  exact ⟨c, inner ++ more, rfl, fun mem => start (List.mem_append_right _ mem)⟩

theorem followsKeyword_mark {c : Char} (other : c ∉ jointMarks) (more : List Char) :
    FollowsKeyword (c :: more) := ⟨c, more, rfl, other⟩

/-- A test in parentheses and the body that it guards. -/
def guardedChars (depth : Nat) (test : Expression) (body : List Statement) : List Char :=
  '(' :: (test.chars depth ++ ')' :: ' ' :: '{' :: '\n' :: (bodyChars depth body ++ ['\n']))

/-- The keyword that a statement is printed with, and what stands behind it and its space. -/
def Statement.keyword? (depth : Nat) : Statement → Option (String × List Char)
  | .declare name init => some ("let", Parameter.chars depth ⟨name, init⟩ ++ [';', '\n'])
  | .constant name init =>
    some ("const", name.toList ++ ' ' :: '=' :: ' ' :: (init.chars depth ++ [';', '\n']))
  | .guarded test body => some ("if", guardedChars depth test body)
  | .result value => some ("return", value.chars depth ++ [';', '\n'])
  | .function name params body =>
    some ("function", name.toList ++ '(' :: ((commaSeparated params).toList ++
      ')' :: ' ' :: '{' :: '\n' :: (bodyChars depth body ++ ['\n'])))
  | .loop test body => some ("while", guardedChars depth test body)
  | .each binding iterable body =>
    some ("for", "(const ".toList ++ (binding.toList ++ (" of ".toList ++ (iterable.chars depth ++
      ')' :: ' ' :: '{' :: '\n' :: (bodyChars depth body ++ ['\n'])))))
  | .ensured body finalizer =>
    some ("try", '{' :: '\n' :: (bodyChars depth body ++
      (" finally \x7b\n".toList ++ (bodyChars depth finalizer ++ ['\n']))))
  | .expression _ | .verbatim _ => none

theorem toList_print_keyword {s : Statement} {depth : Nat} {word : String} {tail : List Char}
    (keyword : s.keyword? depth = some (word, tail)) :
    (s.print depth).toList = (indentation depth).toList ++ (word.toList ++ ' ' :: tail) := by
  cases s with
  | expression | verbatim => cases keyword
  | declare name init =>
    cases keyword
    cases init <;> simp [Statement.print, Parameter.chars, Expression.chars]
  | _ =>
    cases keyword
    simp [Statement.print, guardedChars, bodyChars, Expression.chars]

/-- A statement that is printed with a keyword is read as what stands behind the keyword says. -/
theorem readsBack_keyword {s : Statement} {word : String} {tail : Nat → List Char}
    (keyword : ∀ depth, s.keyword? depth = some (word, tail depth))
    (spelled : isSpelled word = true) (follows : ∀ depth, FollowsKeyword (tail depth))
    (reads : ∀ depth rest,
      ∀ᶠ fuel in atTop, readKeyword fuel depth word (tail depth ++ rest) = some (s, rest)) :
    s.ReadsBack := by
  refine fun depth => ⟨_, toList_print_keyword (keyword depth), fun rest => eventually_of_succ ?_⟩
  filter_upwards [reads depth rest] with fuel read
  obtain ⟨c, more, same, other⟩ := follows depth
  rw [same, List.cons_append] at read
  rw [same, List.append_assoc, List.cons_append, List.cons_append, readStatement,
    keyword?_append spelled other]
  exact read

/-! ## Statements of one line -/

theorem readsBack_declare {name : String} {init : Option Expression}
    (reads : Parameter.ReadsBack ⟨name, init⟩) : (Statement.declare name init).ReadsBack := by
  refine readsBack_keyword (fun _ => rfl) (by decide) (fun depth => ?_)
    fun depth rest => eventually_of_succ ?_
  · cases init with
    | none => exact followsKeyword_name reads.spelled _
    | some init =>
      rw [Parameter.chars, List.append_assoc]
      exact followsKeyword_name reads.spelled _
  · filter_upwards [readParameter_append reads depth
      (endsWhole_cons (by decide : ';' ∈ closers) ('\n' :: rest))] with fuel inner
    rw [readKeyword]
    simp [inner, stripLead?]

section

variable {e : Expression} (reads : e.ReadsBack)

include reads

theorem readsBack_constant {name : String} (spelled : isSpelled name = true) :
    (Statement.constant name e).ReadsBack := by
  refine readsBack_keyword (fun _ => rfl) (by decide) (fun _ => followsKeyword_name spelled _)
    fun depth rest => eventually_of_succ ?_
  have first := readName?_append spelled (stops_cons (by decide : isIdentifierPart ' ' = false)
    ('=' :: ' ' :: (e.chars depth ++ ';' :: '\n' :: rest)))
  filter_upwards [reads.whole depth (';' :: '\n' :: rest) (endsWhole_cons (by decide) _)]
    with fuel inner
  rw [readKeyword]
  simp [first, stripLead?, inner]

theorem readsBack_result : (Statement.result e).ReadsBack := by
  refine readsBack_keyword (fun _ => rfl) (by decide)
    (fun depth => followsKeyword_expression (reads.opens depth) _)
    fun depth rest => eventually_of_succ ?_
  filter_upwards [reads.whole depth (';' :: '\n' :: rest) (endsWhole_cons (by decide) _)]
    with fuel inner
  rw [readKeyword]
  simp [inner, stripLead?]

theorem readsBack_expression : (Statement.expression e).ReadsBack := by
  intro depth
  refine ⟨e.chars depth ++ [';', '\n'], by simp [Statement.print, Expression.chars],
    fun rest => eventually_of_succ ?_⟩
  have noKeyword := keyword?_eq_none (reads.opens depth)
    (stops_cons (by decide : isIdentifierPart ';' = false) ('\n' :: rest)) (by simp)
  filter_upwards [reads.whole depth (';' :: '\n' :: rest) (endsWhole_cons (by decide) _)]
    with fuel inner
  rw [List.append_assoc, readStatement]
  simp [noKeyword, inner, stripLead?]

end

/-! ## Statements with a body -/

section

variable {e : Expression} {body : List Statement} (reads : e.ReadsBack)
  (reads_body : ∀ s ∈ body, s.ReadsBack)

include reads_body

section

include reads

theorem readGuarded_append (depth : Nat) (rest : List Char) :
    ∀ᶠ fuel in atTop, readGuarded fuel depth (guardedChars depth e body ++ rest) =
      some ((e, body), rest) := by
  refine eventually_of_succ ?_
  filter_upwards [reads.whole depth
      (')' :: ' ' :: '{' :: '\n' :: (bodyChars depth body ++ '\n' :: rest))
      (endsWhole_cons (by decide) _),
    readBody_append reads_body depth ('\n' :: rest)] with fuel test inner
  rw [readGuarded, guardedChars]
  simp [stripLead?, test, inner]

theorem readsBack_guarded : (Statement.guarded e body).ReadsBack := by
  refine readsBack_keyword (fun _ => rfl) (by decide) (fun _ => followsKeyword_mark (by decide) _)
    fun depth rest => eventually_of_succ ?_
  filter_upwards [readGuarded_append reads reads_body depth rest] with fuel inner
  rw [readKeyword]
  simp [inner]

theorem readsBack_loop : (Statement.loop e body).ReadsBack := by
  refine readsBack_keyword (fun _ => rfl) (by decide) (fun _ => followsKeyword_mark (by decide) _)
    fun depth rest => eventually_of_succ ?_
  filter_upwards [readGuarded_append reads reads_body depth rest] with fuel inner
  rw [readKeyword]
  simp [inner]

theorem readsBack_each {binding : String} (spelled : isSpelled binding = true) :
    (Statement.each binding e body).ReadsBack := by
  refine readsBack_keyword (fun _ => rfl) (by decide) (fun _ => followsKeyword_mark (by decide) _)
    fun depth rest => eventually_of_succ ?_
  have name := readName?_append spelled (stops_cons (by decide : isIdentifierPart ' ' = false)
    ('o' :: 'f' :: ' ' :: (e.chars depth ++
      ')' :: ' ' :: '{' :: '\n' :: (bodyChars depth body ++ '\n' :: rest))))
  filter_upwards [reads.whole depth
      (')' :: ' ' :: '{' :: '\n' :: (bodyChars depth body ++ '\n' :: rest))
      (endsWhole_cons (by decide) _),
    readBody_append reads_body depth ('\n' :: rest)] with fuel iterable inner
  rw [readKeyword]
  simp [stripLead?, name, iterable, inner]

end

theorem readsBack_function {name : String} {params : List String} (spelled : isSpelled name = true)
    (spelled_params : ∀ p ∈ params, isSpelled p = true) :
    (Statement.function name params body).ReadsBack := by
  refine readsBack_keyword (fun _ => rfl) (by decide) (fun _ => followsKeyword_name spelled _)
    fun depth rest => eventually_of_succ ?_
  have first := readName?_append spelled (stops_cons (by decide : isIdentifierPart '(' = false)
    ((commaSeparated params).toList ++ ')' :: ' ' :: '{' :: '\n' ::
      (bodyChars depth body ++ '\n' :: rest)))
  filter_upwards [readNames_list spelled_params (' ' :: '{' :: '\n' ::
      (bodyChars depth body ++ '\n' :: rest)),
    readBody_append reads_body depth ('\n' :: rest)] with fuel names inner
  rw [readKeyword]
  simp [first, stripLead?, names, inner]

theorem readsBack_ensured {finalizer : List Statement}
    (reads_finalizer : ∀ s ∈ finalizer, s.ReadsBack) :
    (Statement.ensured body finalizer).ReadsBack := by
  refine readsBack_keyword (fun _ => rfl) (by decide) (fun _ => followsKeyword_mark (by decide) _)
    fun depth rest => eventually_of_succ ?_
  filter_upwards [readBody_append reads_body depth
      (" finally \x7b\n".toList ++ (bodyChars depth finalizer ++ '\n' :: rest)),
    readBody_append reads_finalizer depth ('\n' :: rest)] with fuel first second
  rw [readKeyword]
  simp_all [stripLead?]

end

end ReactiveMarkup.Emission
