import ReactiveMarkup.Proofs.KeptNumber
import ReactiveMarkup.Proofs.ReadBackProgram
import ReactiveMarkup.Proofs.ReadGrouping

/-!
# Reprinting

Printing does not look at node ids, and what is read is grouped the way it prints. So a program that
keeps its reading is accepted again from its printed text, as the same program with the parentheses
and blocks that printing adds, and prints the same text once more.

A program that does not keep its reading need not be accepted again: behind a number that is kept as
its text, the dot of an access continues the number.
-/

namespace ReactiveMarkup.Script

/-! ## Printing numbered trees -/

theorem Expression.isChain_number (e : Expression) (next : Nat) :
    (e.number next).1.isChain = e.isChain := by
  cases e <;> rfl

theorem Statement.isBranch_number (s : Statement) (next : Nat) :
    (s.number next).1.isBranch = s.isBranch := by
  cases s with
  | conditional test consequent alternate => cases alternate <;> rfl
  | result value => cases value <;> rfl
  | _ => rfl

mutual

theorem Expression.printAt_number (depth : Nat) :
    (e : Expression) → (next : Nat) → (e.number next).1.printAt depth = e.printAt depth
  | .identifier _, _ => rfl
  | .binary left operator right, next => by
    simp only [Expression.number, Expression.printAt, left.printAt_number, right.printAt_number]
  | .assignment operator target right, next => by
    simp only [Expression.number, Expression.printAt, target.printAt_number, right.printAt_number]
  | .update operator leading target, next => by
    simp only [Expression.number, Expression.printAt, target.printAt_number]
  | .call function arguments optional, next => by
    simp only [Expression.number, Expression.printAt, callee, function.isChain_number,
      function.printAt_number, Expression.printAllAt_number depth arguments]
  | .member object property optional, next => by
    simp only [Expression.number, Expression.printAt, callee, object.isChain_number,
      object.printAt_number]
  | .parenthesized inner, next => by
    simp only [Expression.number, Expression.printAt, inner.printAt_number]
  | .sequence expressions, next => by
    simp only [Expression.number, Expression.printAt,
      Expression.printAllAt_number depth expressions]
  | .function function, next => by
    simp only [Expression.number, Expression.printAt, function.printAt_number]
  | .verbatim _ _, _ => rfl
termination_by structural e => e

theorem Expression.printAllAt_number (depth : Nat) : (es : List Expression) → (next : Nat) →
    Expression.printAllAt depth (Expression.numberAll next es).1 = Expression.printAllAt depth es
  | [], _ => rfl
  | e :: rest, next => by
    simp only [Expression.numberAll, Expression.printAllAt, e.printAt_number,
      Expression.printAllAt_number depth rest]
termination_by structural es => es

theorem Target.printAt_number (depth : Nat) :
    (t : Target) → (next : Nat) → (t.number next).1.printAt depth = t.printAt depth
  | .identifier _, _ => rfl
  | .member object property, next => by
    simp only [Target.number, Target.printAt, callee, object.isChain_number, object.printAt_number]
  | .verbatim _ _, _ => rfl
termination_by structural t => t

theorem Function.printAt_number (depth : Nat) :
    (f : Function) → (next : Nat) → (f.number next).1.printAt depth = f.printAt depth
  | ⟨_, signature, .block []⟩, _ => rfl
  | ⟨_, signature, .block (first :: rest)⟩, next => by
    simp only [Function.number, Statement.numberAll, Function.printAt, first.printAt_number,
      Statement.printLines_number (depth + 1) rest]
  | ⟨_, signature, .expression value⟩, next => by
    simp only [Function.number, Function.printAt, value.printAt_number]
termination_by structural f => f

theorem Statement.printAt_number (depth : Nat) :
    (s : Statement) → (next : Nat) → (s.number next).1.printAt depth = s.printAt depth
  | .declaration kind declarators, next => by
    simp only [Statement.number, Statement.printAt, Declarator.printAllAt_number depth declarators]
  | .function function, next => by
    simp only [Statement.number, Statement.printAt, function.printAt_number]
  | .expression expression, next => by
    simp only [Statement.number, Statement.printAt, expression.printAt_number]
  | .block _ [], _ => rfl
  | .block _ (first :: rest), next => by
    simp only [Statement.number, Statement.numberAll, Statement.printAt, first.printAt_number,
      Statement.printLines_number (depth + 1) rest]
  | .conditional test consequent none, next => by
    simp only [Statement.number, Statement.printAt, branch, test.printAt_number,
      consequent.isBranch_number, consequent.printAt_number]
  | .conditional test consequent (some alternate), next => by
    simp only [Statement.number, Statement.printAt, branch, test.printAt_number,
      consequent.isBranch_number, consequent.printAt_number, alternate.isBranch_number,
      alternate.printAt_number]
  | .result none, _ => rfl
  | .result (some value), next => by
    simp only [Statement.number, Statement.printAt, value.printAt_number]
  | .labeled label body, next => by
    simp only [Statement.number, Statement.printAt, body.printAt_number]
  | .verbatim _ _, _ => rfl
termination_by structural s => s

theorem Statement.printLines_number (depth : Nat) : (ss : List Statement) → (next : Nat) →
    Statement.printLines depth (Statement.numberAll next ss).1 = Statement.printLines depth ss
  | [], _ => rfl
  | s :: rest, next => by
    simp only [Statement.numberAll, Statement.printLines, s.printAt_number,
      Statement.printLines_number depth rest]
termination_by structural ss => ss

theorem Declarator.printAllAt_number (depth : Nat) : (ds : List Declarator) → (next : Nat) →
    Declarator.printAllAt depth (Declarator.numberAll next ds).1 = Declarator.printAllAt depth ds
  | [], _ => rfl
  | ⟨pattern, none⟩ :: rest, next => by
    simp only [Declarator.numberAll, Declarator.printAllAt, Declarator.printAllAt_number depth rest]
  | ⟨pattern, some init⟩ :: rest, next => by
    simp only [Declarator.numberAll, Declarator.printAllAt, init.printAt_number,
      Declarator.printAllAt_number depth rest]
termination_by structural ds => ds

end

/-- Printing does not look at node ids. -/
theorem printStatements_number (statements : List Statement) (next : Nat) :
    printStatements (Statement.numberAll next statements).1 = printStatements statements :=
  Statement.printLines_number 0 statements next

/-! ## Reading printed programs -/

/-- **Reprinting is faithful where verbatim text keeps its reading.** The text that an accepted
program prints is accepted, as the settled program whose nodes are numbered anew, and reprinting a
second time changes nothing. -/
theorem parseProgram?_reprint {text : List Char} {program : List Statement}
    (accepted : readProgram? text = some program) (keeps : KeepsReading program)
    (next next' : Nat) :
    ∃ body last body' last',
      parseProgram? text next = some (body, last) ∧
      (body, last) = Statement.numberAll next program ∧
      parseProgram? (printStatements body).toList next' = some (body', last') ∧
      (body', last') = Statement.numberAll next' (Statement.settleAll 0 program) ∧
      printStatements body' = printStatements body := by
  have grouped : Statement.GroupedAll .topLevel program := groupedAll_of_read accepted
  have again : readProgram? (printStatements (Statement.numberAll next program).1).toList =
      some (Statement.settleAll 0 program) := by
    rw [printStatements_number]
    exact readProgram?_print grouped keeps
  refine ⟨_, _, _, _, ?_, rfl, ?_, rfl, ?_⟩
  · rw [parseProgram?, accepted, Option.map_some]
  · rw [parseProgram?, again, Option.map_some]
  · rw [printStatements_number, printStatements_number, printStatements_settle]

/-- The program `if (n < 10) n = n + 1; f(n, 10);`. -/
def countAndCall : List Statement :=
  [.conditional (.binary (.identifier "n") "<" (.verbatim "10" []))
    (.expression (.assignment "=" (.identifier "n")
      (.binary (.identifier "n") "+" (.verbatim "1" [])))) none,
   .expression (.call (.identifier "f") [.identifier "n", .verbatim "10" []] false)]

theorem keepsReading_countAndCall : KeepsReading countAndCall := by
  have plain : isDouble "n" = false := by decide
  have operation : ∀ operator source depth place c rest, operator ≠ "??" →
      isDecimal source.toList = true → endsWhole (c :: rest) = true →
      endsNumber (c :: rest) = true →
      (Expression.binary (.identifier "n") operator (.verbatim source [])).Keeps .topLevel depth
        place (c :: rest) := by
    intro operator source depth place c rest coalesces decimal ended ends
    refine ⟨fun eq => absurd eq coalesces, .inl plain, readsLeaf_decimal decimal ends ?_⟩
    exact ⟨endsName_of_endsWhole ended, noArrow_of_endsWhole ended, endsOperand_of_endsWhole ended⟩
  refine ⟨[], rfl, .inr ⟨[], [], rfl, ?_, .inr ⟨[], [], rfl, ?_, rfl⟩⟩⟩
  · refine ⟨rfl, operation _ _ _ _ _ _ (by decide) (by decide) rfl rfl, [], rfl, ?_⟩
    refine ⟨⟨.inl plain, operation _ _ _ _ _ _ (by decide) (by decide) rfl rfl⟩, fun leads => ?_⟩
    cases leads
  · refine ⟨rfl, ?_⟩
    refine ⟨⟨.inl (by decide), .inl plain, readsLeaf_decimal (by decide) rfl (.inl rfl), trivial⟩,
      fun leads => ?_⟩
    cases leads

/-- The branch of the condition is a block when it is read again. -/
theorem reprint_countAndCall :
    readProgram? "if (n < 10) n = n + 1; f(n, 10);".toList = some countAndCall ∧
      KeepsReading countAndCall ∧
      ∃ body last body' last',
        parseProgram? "if (n < 10) n = n + 1; f(n, 10);".toList 0 = some (body, last) ∧
        (body, last) = Statement.numberAll 0 countAndCall ∧
        parseProgram? (printStatements body).toList 0 = some (body', last') ∧
        (body', last') = Statement.numberAll 0 (Statement.settleAll 0 countAndCall) ∧
        printStatements body' = printStatements body :=
  have accepted : readProgram? "if (n < 10) n = n + 1; f(n, 10);".toList = some countAndCall := rfl
  have keeps := keepsReading_countAndCall
  ⟨accepted, keeps, parseProgram?_reprint accepted keeps 0 0⟩

/-- The dot behind the number `1` is taken for the point of a fraction when it is read again. -/
theorem not_accepted_reprint :
    ¬ ∀ (text : List Char) (next : Nat) (body : List Statement) (last : Nat),
      parseProgram? text next = some (body, last) →
      (parseProgram? (printStatements body).toList next).isSome = true := by
  intro accepted
  have printed := accepted "1 .toFixed();".toList 0
    [.expression (.call (.member (.verbatim "1" []) "toFixed" false) [] false)] 0 rfl
  exact absurd printed (by decide +kernel)

end ReactiveMarkup.Script
