import ReactiveMarkup.Proofs.ReadBackParameter

/-!
# Grouped trees

A tree says how its parts group; a text says it by parentheses, by how tight operators bind, and by
where an `else` belongs. A tree is *grouped* if its printed text needs no parentheses and no braces
besides those that the printer puts: an operand of an operator binds tighter than the operator, an
assignment or an arrow stands only where a whole expression does, and no condition without an `else`
stands before an `else`.
-/

namespace ReactiveMarkup.Script

/-- Where an expression stands. -/
inductive Place
  /-- Before an access or a call. -/
  | chain
  /-- Among operands, where operators bind tighter than a level. -/
  | operand (level : Nat)
  /-- Where no comma may stand. -/
  | whole
  /-- Among the arguments of a call. -/
  | argument
  /-- Where commas may stand. -/
  | sequence
deriving DecidableEq, Repr

namespace Place

/-- Whether a whole expression stands in a place. -/
def isWhole : Place → Bool
  | chain | operand _ => false
  | whole | argument | sequence => true

/-- How tight the operators in a place must bind. -/
def level : Place → Nat
  | operand level => level
  | _ => 0

end Place

/-- Whether a word is spelled as names are and is none of the keywords. -/
def isNamed (name : String) : Bool := isSpelled name && !isReserved name

/-- The operator that an expression joins two operands by. -/
def Expression.operator? : Expression → Option String
  | .binary _ operator _ => some operator
  | _ => none

/-- Whether an expression ends before an operator that follows it. -/
def Expression.ClosesBefore (operator : String) (e : Expression) : Prop :=
  ∀ inner, e.operator? = some inner →
    bindsWithin (operator, operatorLevel operator) (operatorLevel inner) = false

/-- The place of an expression before an access or a call; one that is no chain gets parentheses. -/
def Expression.calleePlace (e : Expression) : Place := if e.isChain then .chain else .sequence

/-- Whether a statement ends with a condition that an `else` behind it would belong to. -/
def Statement.isOpen : Statement → Bool
  | .conditional _ _ none => true
  | .conditional _ _ (some alternate) => alternate.isOpen
  | .labeled _ body => body.isOpen
  | _ => false
termination_by structural s => s

/-- The inside of an arrow that is an expression. -/
def Context.arrow (ctx : Context) (isAsync : Bool) : Context :=
  { ctx with yields := false, awaits := isAsync }

/-- Whether a function of some form may stand in a place. Its name is bound in `outer`. -/
def Signature.Stands (outer : Context) (place : Place) (s : Signature) : Prop :=
  if s.isArrow then place.isWhole = true ∧ s.name = none ∧ s.isGenerator = false
  else ∀ name, s.name = some name → isBindable outer name = true

/-- Whether a function may be declared in a place of statements. -/
def Signature.Declares (isSingle : Bool) (s : Signature) : Prop :=
  s.isArrow = false ∧ s.name.isSome = true ∧
    (isSingle = true → s.isAsync = false ∧ s.isGenerator = false)

/-- Whether a pattern can be bound in a context. -/
def Pattern.Binds (ctx : Context) : Pattern → Prop
  | .identifier name => isBindable ctx name = true
  | .destructure _ _ => True

mutual

/-- Whether an expression is grouped and may stand in a place. -/
def Expression.Grouped (ctx : Context) (place : Place) : Expression → Prop
  | .identifier name => isNamed name = true
  | .binary left operator right =>
    place ≠ .chain ∧ operator ∈ operatorMarks ++ operatorWords ∧
      bindsWithin (operator, operatorLevel operator) place.level = true ∧
      left.ClosesBefore operator ∧ left.Grouped ctx (.operand place.level) ∧
      right.Grouped ctx (.operand (operatorLevel operator))
  | .assignment mark target right =>
    place.isWhole = true ∧ mark ∈ assignmentMarks ∧ target.Grouped ctx ∧ right.Grouped ctx .whole
  | .update mark _ target => place ≠ .chain ∧ mark ∈ updateMarks ∧ target.Grouped ctx
  | .call function arguments optional =>
    optional = false ∧ function.Grouped ctx function.calleePlace ∧
      Expression.GroupedAll ctx .argument arguments
  | .member object property optional =>
    optional = false ∧ isSpelled property = true ∧ object.Grouped ctx object.calleePlace
  | .parenthesized inner => inner.Grouped ctx .sequence
  | .sequence items =>
    place = .sequence ∧ 2 ≤ items.length ∧ Expression.GroupedAll ctx .whole items
  | .function function => function.Grouped ctx place
  | .verbatim _ _ => True
termination_by structural e => e

/-- Whether some expressions are grouped and may stand in a place. -/
def Expression.GroupedAll (ctx : Context) (place : Place) : List Expression → Prop
  | [] => True
  | e :: rest => e.Grouped ctx place ∧ Expression.GroupedAll ctx place rest
termination_by structural es => es

/-- Whether what an assignment or an update writes to is grouped. -/
def Target.Grouped (ctx : Context) : Target → Prop
  | .identifier name => isNamed name = true
  | .member object property => isSpelled property = true ∧ object.Grouped ctx object.calleePlace
  | .verbatim _ _ => True
termination_by structural t => t

/-- Whether a function expression is grouped and may stand in a place. -/
def Function.Grouped (ctx : Context) (place : Place) : Function → Prop
  | ⟨_, signature, .block body⟩ =>
    signature.Stands (.function signature.isAsync signature.isGenerator) place ∧
      Statement.GroupedAll (.function signature.isAsync signature.isGenerator) body
  | ⟨_, signature, .expression value⟩ =>
    signature.isArrow = true ∧
      signature.Stands (.function signature.isAsync signature.isGenerator) place ∧
      value.Grouped (ctx.arrow signature.isAsync) .whole
termination_by structural f => f

/-- Whether a statement is grouped and may stand where it does. -/
def Statement.Grouped (ctx : Context) (isSingle : Bool) : Statement → Prop
  | .declaration kind declarators =>
    (isSingle = true → kind = .var) ∧ declarators ≠ [] ∧
      declarators.all (Declarator.isComplete kind) = true ∧ Declarator.GroupedAll ctx declarators
  | .function function => function.GroupedAs ctx isSingle
  | .expression expression => expression.Grouped ctx .sequence
  | .block _ body => Statement.GroupedAll ctx body
  | .conditional test consequent none =>
    test.Grouped ctx .sequence ∧ consequent.Grouped ctx false
  | .conditional test consequent (some alternate) =>
    test.Grouped ctx .sequence ∧ consequent.Grouped ctx false ∧ consequent.isOpen = false ∧
      alternate.Grouped ctx false
  | .result none => ctx.returns = true
  | .result (some value) => ctx.returns = true ∧ value.Grouped ctx .sequence
  | .labeled label body => isNamed label = true ∧ body.Grouped ctx true
  | .verbatim _ _ => True
termination_by structural s => s

/-- Whether a declared function is grouped. -/
def Function.GroupedAs (ctx : Context) (isSingle : Bool) : Function → Prop
  | ⟨_, signature, .block body⟩ =>
    signature.Declares isSingle ∧ signature.Stands ctx .chain ∧
      Statement.GroupedAll (.function signature.isAsync signature.isGenerator) body
  | ⟨_, _, .expression _⟩ => False
termination_by structural f => f

/-- Whether some statements are grouped. -/
def Statement.GroupedAll (ctx : Context) : List Statement → Prop
  | [] => True
  | s :: rest => s.Grouped ctx false ∧ Statement.GroupedAll ctx rest
termination_by structural ss => ss

/-- Whether some bindings are grouped. -/
def Declarator.GroupedAll (ctx : Context) : List Declarator → Prop
  | [] => True
  | ⟨pattern, none⟩ :: rest => pattern.Binds ctx ∧ Declarator.GroupedAll ctx rest
  | ⟨pattern, some init⟩ :: rest =>
    pattern.Binds ctx ∧ init.Grouped ctx .whole ∧ Declarator.GroupedAll ctx rest
termination_by structural ds => ds

end

/-- What may stand where no comma may, may stand where commas may. -/
theorem Expression.Grouped.sequence {ctx : Context} {e : Expression}
    (grouped : e.Grouped ctx .whole) : e.Grouped ctx .sequence := by
  cases e with
  | binary left operator right => exact ⟨by decide, grouped.2⟩
  | assignment mark target right => exact grouped
  | update mark leading target => exact ⟨by decide, grouped.2⟩
  | sequence items => cases grouped.1
  | function f => obtain ⟨id, signature, _ | _⟩ := f <;> exact grouped
  | _ => exact grouped

end ReactiveMarkup.Script
