import ReactiveMarkup.Proofs.GroupedTree
import ReactiveMarkup.Proofs.SettledTree

/-!
# The text of a tree

The characters that each kind of tree prints as, in the form in which they are read back, and the
token that a tree starts with where it shows in the tree.
-/

namespace ReactiveMarkup.Script

open Text (indentation commaSeparated)

/-! ## Characters -/

/-- The characters of an expression. -/
def Expression.chars (depth : Nat) (e : Expression) : List Char := (e.printAt depth).toList

/-- The characters of what an assignment or an update writes to. -/
def Target.chars (depth : Nat) (t : Target) : List Char := (t.printAt depth).toList

/-- The characters of a function. -/
def Function.chars (depth : Nat) (f : Function) : List Char := (f.printAt depth).toList

/-- The characters of a statement. -/
def Statement.chars (depth : Nat) (s : Statement) : List Char := (s.printAt depth).toList

/-- The characters of an expression before an access or a call. -/
def Expression.calleeChars (depth : Nat) (e : Expression) : List Char :=
  if e.isChain then e.chars depth else '(' :: (e.chars depth ++ [')'])

section

variable (depth : Nat)

theorem toList_callee (e : Expression) :
    (callee e (e.printAt depth)).toList = e.calleeChars depth := by
  unfold callee Expression.calleeChars
  split
  · rfl
  · simp [Expression.chars]

theorem chars_binary (left right : Expression) (operator : String) :
    (Expression.binary left operator right).chars depth =
      left.chars depth ++ ' ' :: (operator.toList ++ ' ' :: right.chars depth) := by
  simp [Expression.chars, Expression.printAt]

theorem chars_assignment (mark : String) (target : Target) (right : Expression) :
    (Expression.assignment mark target right).chars depth =
      target.chars depth ++ ' ' :: (mark.toList ++ ' ' :: right.chars depth) := by
  simp [Expression.chars, Target.chars, Expression.printAt]

theorem chars_leading (mark : String) (target : Target) :
    (Expression.update mark true target).chars depth = mark.toList ++ target.chars depth := by
  simp [Expression.chars, Target.chars, Expression.printAt]

theorem chars_trailing (mark : String) (target : Target) :
    (Expression.update mark false target).chars depth = target.chars depth ++ mark.toList := by
  simp [Expression.chars, Target.chars, Expression.printAt]

theorem chars_call (function : Expression) (arguments : List Expression) :
    (Expression.call function arguments false).chars depth = function.calleeChars depth ++
      '(' :: closedList (Expression.printAllAt depth arguments) := by
  rw [← toList_commaSeparated_closed, ← toList_callee]
  simp [Expression.chars, Expression.printAt]

theorem chars_member (object : Expression) (property : String) :
    (Expression.member object property false).chars depth =
      object.calleeChars depth ++ '.' :: property.toList := by
  rw [← toList_callee]
  simp [Expression.chars, Expression.printAt]

theorem chars_target (object : Expression) (property : String) :
    (Target.member object property).chars depth =
      object.calleeChars depth ++ '.' :: property.toList := by
  rw [← toList_callee]
  simp [Target.chars, Target.printAt]

theorem chars_parenthesized (inner : Expression) :
    (Expression.parenthesized inner).chars depth = '(' :: (inner.chars depth ++ [')']) := by
  simp [Expression.chars, Expression.printAt]

theorem chars_sequence (first : Expression) (others : List Expression) :
    (Expression.sequence (first :: others)).chars depth =
      first.chars depth ++ tailsText (Expression.printAllAt depth others) := by
  rw [Expression.chars, Expression.printAt, Expression.printAllAt, toList_commaSeparated]
  rfl

/-! ### Blocks -/

/-- What comes before a line of a block of some depth, or before its closing brace. -/
def lineIndent (ss : List Statement) : List Char :=
  (indentation (if ss.isEmpty then depth else depth + 1)).toList

/-- The lines of a block of some depth with the closing brace behind them. -/
def closedLines : List Statement → List Char
  | [] => ['\x7d']
  | s :: ss => s.chars (depth + 1) ++ '\n' :: (lineIndent depth ss ++ closedLines ss)

/-- What comes before the lines of a block. -/
def blockIndent (ss : List Statement) : List Char :=
  if ss.isEmpty then [] else '\n' :: (indentation (depth + 1)).toList

/-- The text of a block. -/
def blockText (ss : List Statement) : List Char :=
  '\x7b' :: (blockIndent depth ss ++ closedLines depth ss)

theorem blank_lineIndent (ss : List Statement) : Blank (lineIndent depth ss) :=
  blank_indentation _

theorem blank_blockIndent (ss : List Statement) : Blank (blockIndent depth ss) := by
  unfold blockIndent
  split
  · exact Blank.nil
  · exact (blank_indentation _).cons_newLine

theorem toList_printLines (ss : List Statement) :
    (Statement.printLines (depth + 1) ss).toList ++ ((indentation depth).toList ++ ['\x7d']) =
      lineIndent depth ss ++ closedLines depth ss := by
  induction ss with
  | nil => rfl
  | cons s ss ih =>
    rw [closedLines, ← ih]
    simp [Statement.printLines, lineIndent, Statement.chars]

theorem toList_block (first : Statement) (others : List Statement) :
    ("\x7b\n" ++ indentation (depth + 1) ++ first.printAt (depth + 1) ++ "\n" ++
      Statement.printLines (depth + 1) others ++ indentation depth ++ "\x7d").toList =
      blockText depth (first :: others) := by
  rw [blockText, blockIndent, closedLines, ← toList_printLines]
  simp [Statement.chars]

theorem chars_block (id : Nat) (body : List Statement) :
    (Statement.block id body).chars depth = blockText depth body := by
  cases body with
  | nil => simp [Statement.chars, Statement.printAt, blockText, blockIndent, closedLines]
  | cons first others =>
    rw [← toList_block, Statement.chars, Statement.printAt]

/-- The text of a branch of a condition. -/
def branchText (s : Statement) : List Char :=
  if s.isBranch then s.chars depth else blockText depth [s]

/-- The text of the second branch of a condition, with the keyword before it. -/
def elseText (branch : List Char) : List Char := [' '] ++ ("else".toList ++ ([' '] ++ branch))

theorem toList_branch (s : Statement) :
    (branch s (fun d => s.printAt d) depth).toList = branchText depth s := by
  unfold branch branchText
  split
  · rfl
  · rw [← toList_block]
    simp [Statement.printLines]

/-! ### Functions -/

/-- The text of a function, given the text of its body. -/
def Signature.text (s : Signature) (body : List Char) : List Char :=
  asyncText s.isAsync ++
    if s.isArrow then arrowText (closedList s.params) body
    else functionText s.isGenerator s.name (closedList s.params) body

theorem toList_async (isAsync : Bool) :
    (if isAsync then "async " else "").toList = asyncText isAsync := by
  cases isAsync <;> decide

theorem toList_signature (s : Signature) (body : List Char) :
    s.print.toList ++ body = s.text body := by
  obtain ⟨name, isArrow, isAsync, isGenerator, params, paramNames⟩ := s
  have closed : ∀ more,
      (commaSeparated params).toList ++ ')' :: more = closedList params ++ more := by
    intro more
    rw [← toList_commaSeparated_closed, List.append_assoc]
    rfl
  have opening : "(".toList = ['('] := by decide
  cases isArrow with
  | true =>
    have closing : ") => ".toList = ')' :: ' ' :: ("=>".toList ++ [' ']) := by decide
    simp only [Signature.print, Signature.text, if_true, String.toList_append, toList_async,
      closing, opening, arrowText]
    generalize "=>".toList = mark
    simp [closed]
  | false =>
    have closing : ") ".toList = [')', ' '] := by decide
    have star : (if isGenerator then "*" else "").toList = starText isGenerator := by
      cases isGenerator <;> decide
    unfold Signature.print Signature.text functionText
    generalize "function" = word
    cases name <;>
      simp only [Bool.false_eq_true, if_false, String.toList_append, toList_async, closing, opening,
        star] <;> simp [closed, nameText]

/-- The text of the body of an arrow that is an expression. -/
def conciseChars (value : Expression) : List Char := (conciseBody (value.printAt depth)).toList

theorem chars_function_block (id : Nat) (signature : Signature) (body : List Statement) :
    (Function.chars depth ⟨id, signature, .block body⟩) =
      signature.text (blockText depth body) := by
  rw [← toList_signature]
  cases body with
  | nil => simp [Function.chars, Function.printAt, blockText, blockIndent, closedLines]
  | cons first others =>
    rw [← toList_block]
    simp [Function.chars, Function.printAt]

theorem chars_function_concise (id : Nat) (signature : Signature) (value : Expression)
    (arrow : signature.isArrow = true) :
    (Function.chars depth ⟨id, signature, .expression value⟩) =
      signature.text (conciseChars depth value) := by
  rw [← toList_signature]
  simp [Function.chars, Function.printAt, arrow, conciseChars]

end

end ReactiveMarkup.Script
