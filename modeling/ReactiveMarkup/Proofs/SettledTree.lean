import Mathlib.Tactic.Common
import ReactiveMarkup.Script.Printer

/-!
# Settled trees

The printer adds parentheses and braces that are not in the tree it prints. Where it does, a tree is
*settled* by adding them to the tree as well. What is settled prints as before
(`printStatements_settle`), so settling says which tree the printed text stands for.
-/

namespace ReactiveMarkup.Script

open Text (indentation commaSeparated)

/-- An expression before an access or a call, given its settled form. -/
def settledCallee (expression settled : Expression) : Expression :=
  if expression.isChain then settled else .parenthesized settled

/-- A branch of a condition, given its settled form at each depth. -/
def settledBranch (statement : Statement) (settled : Nat → Statement) (depth : Nat) : Statement :=
  if statement.isBranch then settled depth else .block 0 [settled (depth + 1)]

/-- Whether an expression with a printed form is put between parentheses as a statement. -/
def isWrapped (printed : String) : Bool :=
  Text.startsWith printed "function" || Text.startsWith printed "\x7b"

mutual

/-- An expression with the parentheses that printing adds. Node ids are left out. -/
def Expression.settle (depth : Nat) : Expression → Expression
  | .identifier name => .identifier name
  | .binary left operator right => .binary (left.settle depth) operator (right.settle depth)
  | .assignment operator target right =>
    .assignment operator (target.settle depth) (right.settle depth)
  | .update operator leading target => .update operator leading (target.settle depth)
  | .call function arguments optional =>
    .call (settledCallee function (function.settle depth)) (Expression.settleAll depth arguments)
      optional
  | .member object property optional =>
    .member (settledCallee object (object.settle depth)) property optional
  | .parenthesized inner => .parenthesized (inner.settle depth)
  | .sequence expressions => .sequence (Expression.settleAll depth expressions)
  | .function function => .function (function.settle depth)
  | .verbatim source references => .verbatim source references
termination_by structural e => e

/-- Some expressions, settled. -/
def Expression.settleAll (depth : Nat) : List Expression → List Expression
  | [] => []
  | e :: rest => e.settle depth :: Expression.settleAll depth rest
termination_by structural es => es

/-- What an assignment or an update writes to, settled. -/
def Target.settle (depth : Nat) : Target → Target
  | .identifier name => .identifier name
  | .member object property => .member (settledCallee object (object.settle depth)) property
  | .verbatim source names => .verbatim source names
termination_by structural t => t

/-- A function, settled. -/
def Function.settle (depth : Nat) : Function → Function
  | ⟨_, signature, .block body⟩ => ⟨0, signature, .block (Statement.settleAll (depth + 1) body)⟩
  | ⟨_, signature, .expression value⟩ =>
    ⟨0, signature,
      if signature.isArrow then
        .expression (if Text.startsWith (value.printAt depth) "\x7b"
          then .parenthesized (value.settle depth) else value.settle depth)
      else .block [.result (some (value.settle (depth + 1)))]⟩
termination_by structural f => f

/-- A statement with the parentheses and the blocks that printing adds. -/
def Statement.settle (depth : Nat) : Statement → Statement
  | .declaration kind declarators => .declaration kind (Declarator.settleAll depth declarators)
  | .function function => .function (function.settle depth)
  | .expression expression =>
    .expression (if isWrapped (expression.printAt depth)
      then .parenthesized (expression.settle depth) else expression.settle depth)
  | .block _ body => .block 0 (Statement.settleAll (depth + 1) body)
  | .conditional test consequent none =>
    .conditional (test.settle depth)
      (settledBranch consequent (fun d => consequent.settle d) depth) none
  | .conditional test consequent (some alternate) =>
    .conditional (test.settle depth)
      (settledBranch consequent (fun d => consequent.settle d) depth)
      (some (settledBranch alternate (fun d => alternate.settle d) depth))
  | .result none => .result none
  | .result (some value) => .result (some (value.settle depth))
  | .labeled label body => .labeled label (body.settle depth)
  | .verbatim source references => .verbatim source references
termination_by structural s => s

/-- Some statements, settled. -/
def Statement.settleAll (depth : Nat) : List Statement → List Statement
  | [] => []
  | s :: rest => s.settle depth :: Statement.settleAll depth rest
termination_by structural ss => ss

/-- Some bindings, settled. -/
def Declarator.settleAll (depth : Nat) : List Declarator → List Declarator
  | [] => []
  | ⟨pattern, none⟩ :: rest => ⟨pattern, none⟩ :: Declarator.settleAll depth rest
  | ⟨pattern, some init⟩ :: rest =>
    ⟨pattern, some (init.settle depth)⟩ :: Declarator.settleAll depth rest
termination_by structural ds => ds

end

/-! ## Printing -/

theorem Expression.isChain_settle (e : Expression) (depth : Nat) :
    (e.settle depth).isChain = e.isChain := by
  cases e <;> rfl

theorem isChain_settledCallee (e : Expression) (depth : Nat) :
    (settledCallee e (e.settle depth)).isChain = true := by
  unfold settledCallee
  split
  · rwa [e.isChain_settle]
  · rfl

theorem Statement.isBranch_settle (s : Statement) (depth : Nat) :
    (s.settle depth).isBranch = s.isBranch := by
  cases s with
  | conditional test consequent alternate => cases alternate <;> rfl
  | result value => cases value <;> rfl
  | _ => rfl

theorem callee_settledCallee (e : Expression) (depth : Nat)
    (same : (e.settle depth).printAt depth = e.printAt depth) :
    callee (settledCallee e (e.settle depth))
      ((settledCallee e (e.settle depth)).printAt depth) = callee e (e.printAt depth) := by
  rw [callee, isChain_settledCallee, if_pos rfl, settledCallee, callee]
  split
  · exact same
  · rw [Expression.printAt, same]

/-- A branch that has become a block prints as the block that the branch got before. -/
theorem branch_settledBranch (s : Statement) (depth : Nat)
    (same : ∀ d, (s.settle d).printAt d = s.printAt d) :
    branch (settledBranch s (fun d => s.settle d) depth)
      (fun d => (settledBranch s (fun d => s.settle d) depth).printAt d) depth =
      branch s (fun d => s.printAt d) depth := by
  unfold settledBranch
  by_cases branches : s.isBranch = true
  · simp only [branches, if_true, branch, s.isBranch_settle, same]
  · rw [if_neg branches]
    unfold branch
    rw [if_neg branches, if_pos (by rfl)]
    simp only [Statement.printAt, Statement.printLines, same, String.append_assoc,
      String.empty_append]

theorem startsWith_parenthesis (text lead : String) {c : Char} {rest : List Char}
    (spelling : lead.toList = c :: rest) (other : c ≠ '(') :
    Text.startsWith ("(" ++ text) lead = false := by
  rw [Text.startsWith, spelling, String.toList_append, show String.toList "(" = ['('] from rfl,
    List.cons_append, List.isPrefixOf]
  simp [other]

theorem isWrapped_parenthesis (text : String) : isWrapped ("(" ++ text) = false := by
  rw [isWrapped, startsWith_parenthesis text "function" rfl (by decide),
    startsWith_parenthesis text "\x7b" rfl (by decide)]
  rfl

theorem expressionStatement_eq (printed : String) :
    expressionStatement printed =
      if isWrapped printed then "(" ++ printed ++ ");" else printed ++ ";" :=
  rfl

/-- An expression statement prints its parentheses once. -/
theorem expressionStatement_settle (e : Expression) (depth : Nat)
    (same : (e.settle depth).printAt depth = e.printAt depth) :
    (Statement.settle depth (.expression e)).printAt depth =
      (Statement.expression e).printAt depth := by
  simp only [Statement.settle, Statement.printAt, expressionStatement_eq]
  cases wrapped : isWrapped (e.printAt depth) with
  | true =>
    have once : isWrapped ("(" ++ e.printAt depth ++ ")") = false := by
      rw [String.append_assoc]
      exact isWrapped_parenthesis _
    simp only [if_true, Expression.printAt, same, once, Bool.false_eq_true, if_false]
    rw [String.append_assoc]
    rfl
  | false => simp only [Bool.false_eq_true, if_false, same, wrapped]

/-- The body of an arrow prints its parentheses once. -/
theorem conciseBody_settle (e : Expression) (depth : Nat)
    (same : (e.settle depth).printAt depth = e.printAt depth) :
    conciseBody ((if Text.startsWith (e.printAt depth) "\x7b"
      then .parenthesized (e.settle depth) else e.settle depth : Expression).printAt depth) =
      conciseBody (e.printAt depth) := by
  cases wrapped : Text.startsWith (e.printAt depth) "\x7b" with
  | true =>
    have once : Text.startsWith ("(" ++ e.printAt depth ++ ")") "\x7b" = false := by
      rw [String.append_assoc]
      exact startsWith_parenthesis _ "\x7b" rfl (by decide)
    simp only [if_true, Expression.printAt, same, conciseBody, once, wrapped, Bool.false_eq_true,
      if_false]
  | false => simp only [Bool.false_eq_true, if_false, same]

mutual

theorem Expression.printAt_settle (depth : Nat) :
    (e : Expression) → (e.settle depth).printAt depth = e.printAt depth
  | .identifier _ => rfl
  | .binary left operator right => by
    simp only [Expression.settle, Expression.printAt, left.printAt_settle, right.printAt_settle]
  | .assignment operator target right => by
    simp only [Expression.settle, Expression.printAt, target.printAt_settle, right.printAt_settle]
  | .update operator leading target => by
    simp only [Expression.settle, Expression.printAt, target.printAt_settle]
  | .call function arguments optional => by
    simp only [Expression.settle, Expression.printAt, Expression.printAllAt_settle depth arguments,
      callee_settledCallee function depth (function.printAt_settle depth)]
  | .member object property optional => by
    simp only [Expression.settle, Expression.printAt,
      callee_settledCallee object depth (object.printAt_settle depth)]
  | .parenthesized inner => by
    simp only [Expression.settle, Expression.printAt, inner.printAt_settle]
  | .sequence expressions => by
    simp only [Expression.settle, Expression.printAt,
      Expression.printAllAt_settle depth expressions]
  | .function function => by
    simp only [Expression.settle, Expression.printAt, function.printAt_settle]
  | .verbatim _ _ => rfl
termination_by structural e => e

theorem Expression.printAllAt_settle (depth : Nat) : (es : List Expression) →
    Expression.printAllAt depth (Expression.settleAll depth es) = Expression.printAllAt depth es
  | [] => rfl
  | e :: rest => by
    simp only [Expression.settleAll, Expression.printAllAt, e.printAt_settle,
      Expression.printAllAt_settle depth rest]
termination_by structural es => es

theorem Target.printAt_settle (depth : Nat) :
    (t : Target) → (t.settle depth).printAt depth = t.printAt depth
  | .identifier _ => rfl
  | .member object property => by
    simp only [Target.settle, Target.printAt,
      callee_settledCallee object depth (object.printAt_settle depth)]
  | .verbatim _ _ => rfl
termination_by structural t => t

theorem Function.printAt_settle (depth : Nat) :
    (f : Function) → (f.settle depth).printAt depth = f.printAt depth
  | ⟨_, signature, .block []⟩ => rfl
  | ⟨_, signature, .block (first :: rest)⟩ => by
    simp only [Function.settle, Statement.settleAll, Function.printAt, first.printAt_settle,
      Statement.printLines_settle (depth + 1) rest]
  | ⟨_, signature, .expression value⟩ => by
    cases arrow : signature.isArrow with
    | true =>
      simp only [Function.settle, arrow, if_true, Function.printAt,
        conciseBody_settle value depth (value.printAt_settle depth)]
    | false =>
      simp only [Function.settle, arrow, Bool.false_eq_true, if_false, Function.printAt,
        Statement.printAt, Statement.printLines, value.printAt_settle, String.append_assoc,
        String.empty_append]
      rfl
termination_by structural f => f

theorem Statement.printAt_settle (depth : Nat) :
    (s : Statement) → (s.settle depth).printAt depth = s.printAt depth
  | .declaration kind declarators => by
    simp only [Statement.settle, Statement.printAt, Declarator.printAllAt_settle depth declarators]
  | .function function => by
    simp only [Statement.settle, Statement.printAt, function.printAt_settle]
  | .expression expression =>
    expressionStatement_settle expression depth (expression.printAt_settle depth)
  | .block _ [] => rfl
  | .block _ (first :: rest) => by
    simp only [Statement.settle, Statement.settleAll, Statement.printAt, first.printAt_settle,
      Statement.printLines_settle (depth + 1) rest]
  | .conditional test consequent none => by
    simp only [Statement.settle, Statement.printAt, test.printAt_settle,
      branch_settledBranch consequent depth (fun d => consequent.printAt_settle d)]
  | .conditional test consequent (some alternate) => by
    simp only [Statement.settle, Statement.printAt, test.printAt_settle,
      branch_settledBranch consequent depth (fun d => consequent.printAt_settle d),
      branch_settledBranch alternate depth (fun d => alternate.printAt_settle d)]
  | .result none => rfl
  | .result (some value) => by
    simp only [Statement.settle, Statement.printAt, value.printAt_settle]
  | .labeled label body => by
    simp only [Statement.settle, Statement.printAt, body.printAt_settle]
  | .verbatim _ _ => rfl
termination_by structural s => s

theorem Statement.printLines_settle (depth : Nat) : (ss : List Statement) →
    Statement.printLines depth (Statement.settleAll depth ss) = Statement.printLines depth ss
  | [] => rfl
  | s :: rest => by
    simp only [Statement.settleAll, Statement.printLines, s.printAt_settle,
      Statement.printLines_settle depth rest]
termination_by structural ss => ss

theorem Declarator.printAllAt_settle (depth : Nat) : (ds : List Declarator) →
    Declarator.printAllAt depth (Declarator.settleAll depth ds) = Declarator.printAllAt depth ds
  | [] => rfl
  | ⟨pattern, none⟩ :: rest => by
    simp only [Declarator.settleAll, Declarator.printAllAt, Declarator.printAllAt_settle depth rest]
  | ⟨pattern, some init⟩ :: rest => by
    simp only [Declarator.settleAll, Declarator.printAllAt, init.printAt_settle,
      Declarator.printAllAt_settle depth rest]
termination_by structural ds => ds

end

/-- What is settled prints as before. -/
theorem printStatements_settle (statements : List Statement) :
    printStatements (Statement.settleAll 0 statements) = printStatements statements :=
  Statement.printLines_settle 0 statements

end ReactiveMarkup.Script
