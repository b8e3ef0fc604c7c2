import ReactiveMarkup.Proofs.LeadingToken

/-!
# Texts that keep their reading

The printer puts verbatim text where it stands in the tree, without regard to what comes before it
and behind it. A tree *keeps* its reading if this does no harm: where verbatim text stands, it is
read as that text again. The same is asked of the few words that are names in one place and keywords
in another, and of parameters that are more than names. Nothing is asked of the rest of the tree.
-/

namespace ReactiveMarkup.Script

open Text (indentation)

/-! ## Leaves -/

/-- Whether a piece is read back as a tree in a place. -/
def Place.Reads (ctx : Context) (piece : List Char) (tree : Expression) (rest : List Char) :
    Place → Prop
  | .chain => ReadsChain ctx piece tree rest
  | .operand level => ReadsOperands ctx level piece tree rest
  | .whole => ReadsWhole ctx piece tree rest
  | .argument => ReadsArgument ctx piece tree rest
  | .sequence => ReadsSequence ctx piece tree rest

/-- Whether verbatim text is read back in a place. Before a link or an operator it must not start
an arrow either. -/
def Place.ReadsLeaf (ctx : Context) (piece : List Char) (tree : Expression) (rest : List Char)
    (place : Place) : Prop :=
  place.Reads ctx piece tree rest ∧ (place.isWhole = false → LeadsWhole ctx (piece ++ rest))

/-- Whether verbatim text is read back as what an assignment with a mark, or an update, writes
to. -/
def ReadsDestination (ctx : Context) (mark : Option String) (piece : List Char) (target : Target)
    (rest : List Char) : Prop :=
  (match mark with
    | some mark => ReadsTarget ctx mark piece target rest
    | none => ReadsPlace ctx piece target rest) ∧ LeadsWhole ctx (piece ++ rest)

/-- Whether a word is a name in one place and a keyword in another. -/
def isDouble (name : String) : Bool := doubleWords.contains name

/-- The items between the commas of an expression. -/
def Expression.items : Expression → List Expression
  | .sequence items => items
  | e => [e]

/-- Whether those of some items that start with verbatim text are not taken for other parameters
than they are items. -/
def Expression.WaryAll (ctx : Context) (depth : Nat) (rest : List Char) : List Expression → Prop
  | [] => True
  | e :: es =>
    (e.opener = none →
      Wary ctx (e.chars depth) (tailsText (Expression.printAllAt depth es) ++ rest)) ∧
      Expression.WaryAll ctx depth rest es

/-- What is asked of an expression between parentheses, given what is asked of it in a place. -/
def KeptInside (ctx : Context) (depth : Nat) (rest : List Char) (e : Expression)
    (keeps : Place → List Char → Prop) : Prop :=
  keeps .sequence (')' :: rest) ∧ Expression.WaryAll ctx depth (')' :: rest) e.items

/-- What is asked of an expression before an access or a call. -/
def KeptCallee (ctx : Context) (depth : Nat) (rest : List Char) (e : Expression)
    (keeps : Place → List Char → Prop) : Prop :=
  if e.isChain then keeps .chain rest else KeptInside ctx depth rest e keeps

/-- What is asked of a branch of a condition, given what is asked of it at a depth, as a single
statement or not, before a text. -/
def KeptBranch (depth : Nat) (rest : List Char) (s : Statement)
    (keeps : Nat → Bool → List Char → Prop) : Prop :=
  if s.isBranch then keeps depth true rest
  else keeps (depth + 1) false ('\n' :: ((indentation depth).toList ++ '\x7d' :: rest))

/-- The context in which the parameters of a function stand. -/
def Signature.inside (ctx : Context) (s : Signature) : Context :=
  if s.isArrow then { ctx with awaits := ctx.awaits || s.isAsync }
  else .function s.isAsync s.isGenerator

/-- What follows the parameters of a function, given the text of its body. -/
def Signature.behindParams (s : Signature) (body : List Char) : List Char :=
  ' ' :: (if s.isArrow then "=>".toList ++ ' ' :: body else body)

/-- Whether the parameters of a function are names, or are read back. -/
def Signature.Keeps (ctx : Context) (body : List Char) (s : Signature) : Prop :=
  ((∀ name ∈ s.params, isBindable (s.inside ctx) name = true) ∧
      s.paramNames = distinctNames s.params) ∨
    ReadsParameters (s.inside ctx) ('(' :: closedList s.params) s.params s.paramNames
        (s.behindParams body) ∧
      (s.isArrow = true → SignsArrow (closedList s.params ++ s.behindParams body))

/-- Whether an expression starts with a mark or with a name that starts no other statement. -/
def Expression.leadsPlainly (e : Expression) : Bool :=
  match e.opener with
  | some (.punctuator _) => true
  | some (.word word _) => isPlainName word
  | _ => false

/-- Whether a pattern that takes a value apart is read back. -/
def Pattern.Keeps (ctx : Context) (rest : List Char) : Pattern → Prop
  | .identifier _ => True
  | .destructure source names => ReadsBinding ctx source.toList (.destructure source names) rest

/-- What follows the pattern of a binding, given its initial value. -/
def initText (init : List Char) : List Char := ' ' :: ("=".toList ++ ' ' :: init)

/-! ## Trees -/

mutual

/-- Whether an expression keeps its reading in a place before the text `rest`. -/
def Expression.Keeps (ctx : Context) (depth : Nat) (place : Place) (rest : List Char) :
    Expression → Prop
  | .identifier name =>
    isDouble name = false ∨ place.ReadsLeaf ctx name.toList (.identifier name) rest
  | .binary left operator right =>
    OperandsFit operator (left.chars depth) (left.settle depth) (right.chars depth)
        (right.settle depth) ∧
      left.Keeps ctx depth (.operand place.level)
        (' ' :: (operator.toList ++ ' ' :: (right.chars depth ++ rest))) ∧
      right.Keeps ctx depth (.operand (operatorLevel operator)) rest
  | .assignment mark target right =>
    target.Keeps ctx depth (some mark)
        (' ' :: (mark.toList ++ ' ' :: (right.chars depth ++ rest))) ∧
      right.Keeps ctx depth .whole rest
  | .update mark leading target =>
    target.Keeps ctx depth none (if leading then rest else mark.toList ++ rest)
  | .call function arguments _ =>
    KeptCallee ctx depth ('(' :: (closedList (Expression.printAllAt depth arguments) ++ rest))
        function (fun place rest => function.Keeps ctx depth place rest) ∧
      Expression.KeepsAll ctx depth .argument (')' :: rest) arguments
  | .member object property _ =>
    KeptCallee ctx depth ('.' :: (property.toList ++ rest)) object
      fun place rest => object.Keeps ctx depth place rest
  | .parenthesized inner =>
    KeptInside ctx depth rest inner fun place rest => inner.Keeps ctx depth place rest
  | .sequence items => Expression.KeepsAll ctx depth .whole rest items
  | .function function => function.Keeps ctx depth rest
  | .verbatim source references =>
    place.ReadsLeaf ctx source.toList (.verbatim source references) rest
termination_by structural e => e

/-- Whether some expressions, with commas between them, keep their reading. -/
def Expression.KeepsAll (ctx : Context) (depth : Nat) (place : Place) (rest : List Char) :
    List Expression → Prop
  | [] => True
  | e :: es =>
    e.Keeps ctx depth place (tailsText (Expression.printAllAt depth es) ++ rest) ∧
      Expression.KeepsAll ctx depth place rest es
termination_by structural es => es

/-- Whether what an assignment with a mark, or an update, writes to keeps its reading. -/
def Target.Keeps (ctx : Context) (depth : Nat) (mark : Option String) (rest : List Char) :
    Target → Prop
  | .identifier name =>
    isDouble name = false ∨ ReadsDestination ctx mark name.toList (.identifier name) rest
  | .member object property =>
    KeptCallee ctx depth ('.' :: (property.toList ++ rest)) object
      fun place rest => object.Keeps ctx depth place rest
  | .verbatim source names =>
    ReadsDestination ctx mark source.toList (.verbatim source names) rest
termination_by structural t => t

/-- Whether a function keeps its reading. -/
def Function.Keeps (ctx : Context) (depth : Nat) (rest : List Char) : Function → Prop
  | ⟨_, signature, .block body⟩ =>
    signature.Keeps ctx (blockText depth body ++ rest) ∧
      Statement.KeepsAll (.function signature.isAsync signature.isGenerator) depth true rest body
  | ⟨_, signature, .expression value⟩ =>
    signature.Keeps ctx (conciseChars depth value ++ rest) ∧
      if Text.startsWith (value.printAt depth) "\x7b" then
        KeptInside (ctx.arrow signature.isAsync) depth rest value
          fun place rest => value.Keeps (ctx.arrow signature.isAsync) depth place rest
      else
        value.Keeps (ctx.arrow signature.isAsync) depth .whole rest ∧
          (value.opener = none → NoBrace (value.chars depth ++ rest))
termination_by structural f => f

/-- Whether a statement, which exports the given names, keeps its reading. -/
def Statement.Keeps (ctx : Context) (depth : Nat) (isSingle isFirst : Bool) (exports : List String)
    (rest : List Char) : Statement → Prop
  | .declaration _ declarators =>
    exports = [] ∧ Declarator.KeepsAll ctx depth (';' :: rest) declarators
  | .function function => exports = [] ∧ function.Keeps ctx depth rest
  | .expression expression =>
    exports = [] ∧
      if isWrapped (expression.printAt depth) then
        KeptInside ctx depth (';' :: rest) expression
          fun place rest => expression.Keeps ctx depth place rest
      else if expression.isVerbatim then
        ReadsStatement ctx isSingle isFirst (expression.chars depth ++ [';'])
          (.expression expression) [] rest
      else
        expression.Keeps ctx depth .sequence (';' :: rest) ∧
          (expression.leadsPlainly = false →
            LeadsStatement ctx isSingle (expression.chars depth ++ ';' :: rest))
  | .block _ body => exports = [] ∧ Statement.KeepsAll ctx depth false rest body
  | .conditional test consequent none =>
    exports = [] ∧
      test.Keeps ctx depth .sequence (')' :: ([' '] ++ (branchText depth consequent ++ rest))) ∧
      KeptBranch depth rest consequent fun depth isSingle rest =>
        ∃ exports, consequent.Keeps ctx depth isSingle false exports rest
  | .conditional test consequent (some alternate) =>
    exports = [] ∧
      test.Keeps ctx depth .sequence (')' :: ([' '] ++ (branchText depth consequent ++
        elseText (branchText depth alternate ++ rest)))) ∧
      (KeptBranch depth (elseText (branchText depth alternate ++ rest)) consequent
        fun depth isSingle rest =>
          ∃ exports, consequent.Keeps ctx depth isSingle false exports rest) ∧
      KeptBranch depth rest alternate fun depth isSingle rest =>
        ∃ exports, alternate.Keeps ctx depth isSingle false exports rest
  | .result none => exports = []
  | .result (some value) =>
    exports = [] ∧ value.Keeps ctx depth .sequence (';' :: rest) ∧
      (value.opener = none → AtOnce (value.chars depth ++ ';' :: rest))
  | .labeled label body =>
    exports = [] ∧
      (isDouble label = true →
        LeadsStatement ctx isSingle (label.toList ++ ':' :: ' ' :: (body.chars depth ++ rest)) ∧
        ReadsSequence ctx label.toList (.identifier label)
          (':' :: ' ' :: (body.chars depth ++ rest))) ∧
      ∃ exports, body.Keeps ctx depth true false exports rest
  | .verbatim source references =>
    ReadsStatement ctx isSingle isFirst source.toList (.verbatim source references) exports rest
termination_by structural s => s

/-- Whether the statements of a block keep their reading before its closing brace. -/
def Statement.KeepsAll (ctx : Context) (depth : Nat) (isFirst : Bool) (rest : List Char) :
    List Statement → Prop
  | [] => True
  | s :: ss =>
    (∃ exports, s.Keeps ctx (depth + 1) false isFirst exports
      ('\n' :: (lineIndent depth ss ++ (closedLines depth ss ++ rest)))) ∧
      Statement.KeepsAll ctx depth false rest ss
termination_by structural ss => ss

/-- Whether some bindings, with commas between them, keep their reading. -/
def Declarator.KeepsAll (ctx : Context) (depth : Nat) (rest : List Char) :
    List Declarator → Prop
  | [] => True
  | ⟨pattern, none⟩ :: ds =>
    pattern.Keeps ctx (tailsText (Declarator.printAllAt depth ds) ++ rest) ∧
      Declarator.KeepsAll ctx depth rest ds
  | ⟨pattern, some init⟩ :: ds =>
    pattern.Keeps ctx (initText
        (init.chars depth ++ (tailsText (Declarator.printAllAt depth ds) ++ rest))) ∧
      init.Keeps ctx depth .whole (tailsText (Declarator.printAllAt depth ds) ++ rest) ∧
      Declarator.KeepsAll ctx depth rest ds
termination_by structural ds => ds

end

end ReactiveMarkup.Script
