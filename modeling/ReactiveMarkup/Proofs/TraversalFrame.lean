import ReactiveMarkup.Proofs.Transformation
import ReactiveMarkup.Proofs.TransformationRun

/-!
# What traversals keep

A visitor of `transformStatements` decides on a step: to go on with the expression that it was
shown, to exchange the operands of an operator first, or to replace the expression. These are
replies of modest visitors (`replying`), so the transformation that is computed is the one run that
there is (`exists_transforms`, `Transforms.eq_transformAll`), and what holds of runs holds of it.

Walks and transformations of statements and of single expressions leave the stack of scopes as they
found it, for every node map, every visitor and every stack; a visitor that changes nothing leaves
the tree as it was; and what is replaced is closed to the visitor (`traversals_keepFrame`).
-/

namespace ReactiveMarkup

open Script (DeclarationKind Expression Statement Declarator Node)
open Script.Node (Inside)

/-- An expression with the operands of its operator exchanged. -/
def Script.Expression.exchanged : Expression → Expression
  | .binary left operator right => .binary right operator left
  | e => e

/-- The reply that a step stands for. -/
def Step.reply (e : Expression) : Step → Reply
  | .descend => .goOn e
  | .exchange => .goOn e.exchanged
  | .replace other => .replace other

section

variable {σ : Type} (tree : ScopeTree) (visit : Expression → ScopeId → σ → Step × σ)

/-- A visitor that decides on steps, as a visitor that gives replies. -/
def replying (e : Expression) (scope : ScopeId) (state : σ) : Reply × σ :=
  ((visit e scope state).1.reply e, (visit e scope state).2)

theorem isModest_replying : IsModest (replying visit) := by
  intro e scope state next wentOn
  have exchanged : sizeOf e.exchanged = sizeOf e := by
    cases e with
    | binary left operator right =>
      simp only [Expression.exchanged, Expression.binary.sizeOf_spec]
      omega
    | _ => rfl
  unfold replying at wentOn
  cases decision : (visit e scope state).1 with
  | descend =>
    rw [decision] at wentOn
    exact Nat.le_of_eq (congrArg sizeOf (Reply.goOn.inj wentOn).symm)
  | exchange =>
    rw [decision] at wentOn
    exact Nat.le_of_eq ((congrArg sizeOf (Reply.goOn.inj wentOn).symm).trans exchanged)
  | replace other =>
    rw [decision] at wentOn
    cases wentOn

/-- Transforms some nodes, in order. -/
def transformAll : List Node → Trail σ → List Node × Trail σ
  | [], trail => ([], trail)
  | x :: rest, trail =>
    let first := transformNode tree visit x trail
    let others := transformAll rest first.2
    (first.1 :: others.1, others.2)

theorem transformAll_expressions (es : List Expression) (trail : Trail σ) :
    transformAll tree visit (es.map .expression) trail =
      ((transformExpressions tree visit es trail).1.map .expression,
        (transformExpressions tree visit es trail).2) := by
  induction es generalizing trail with
  | nil => rfl
  | cons e rest ih =>
    have others := ih (transformExpression tree visit e trail).2
    rw [List.map_cons, transformAll, transformNode]
    dsimp only
    rw [others]
    rfl

theorem transformAll_statements (ss : List Statement) (trail : Trail σ) :
    transformAll tree visit (ss.map .statement) trail =
      ((transformStatements tree visit ss trail).1.map .statement,
        (transformStatements tree visit ss trail).2) := by
  induction ss generalizing trail with
  | nil => rfl
  | cons s rest ih =>
    have others := ih (transformStatement tree visit s trail).2
    rw [List.map_cons, transformAll, transformNode]
    dsimp only
    rw [others]
    rfl

theorem transformAll_declarators (kind : DeclarationKind) (ds : List Declarator)
    (trail : Trail σ) :
    transformAll tree visit (ds.map (.declarator kind)) trail =
      ((transformDeclarators tree visit ds trail).1.map (.declarator kind),
        (transformDeclarators tree visit ds trail).2) := by
  induction ds generalizing trail with
  | nil => rfl
  | cons d rest ih =>
    obtain ⟨pattern, init⟩ := d
    cases init with
    | none =>
      rw [List.map_cons, transformAll, transformNode]
      dsimp only
      rw [ih]
      rfl
    | some e =>
      have others := ih (transformExpression tree visit e trail).2
      rw [List.map_cons, transformAll, transformNode]
      dsimp only
      rw [others]
      rfl

/-- The parts of an expression are transformed as its open children. -/
theorem transformParts_eq (e : Expression) (trail : Trail σ) :
    (Node.expression (transformParts tree visit e trail).1,
        (transformParts tree visit e trail).2) =
      ((Node.expression e).assemble
          (transformAll tree visit (Node.expression e).openChildren trail).1,
        (transformAll tree visit (Node.expression e).openChildren trail).2) := by
  cases e with
  | assignment operator target right => cases target <;> rfl
  | update operator leading target => cases target <;> rfl
  | call callee arguments optional =>
    have others := transformAll_expressions tree visit arguments
      (transformExpression tree visit callee trail).2
    show _ = ((Node.expression (.call callee arguments optional)).assemble
      (transformAll tree visit (.expression callee :: arguments.map .expression) trail).1,
        (transformAll tree visit (.expression callee :: arguments.map .expression) trail).2)
    rw [transformAll, transformNode]
    dsimp only
    rw [others, Node.assemble, Node.assembleExpression, Node.filterMap_expressions]
    rfl
  | sequence items =>
    show _ = ((Node.expression (.sequence items)).assemble
      (transformAll tree visit (items.map .expression) trail).1,
        (transformAll tree visit (items.map .expression) trail).2)
    rw [transformAll_expressions, Node.assemble, Node.assembleExpression,
      Node.filterMap_expressions]
    rfl
  | _ => rfl

/-- An exchange is made before the parts are transformed. -/
theorem transformExpression_exchange {e : Expression} (trail : Trail σ)
    (step : (visit e trail.stack.current trail.state).1 = .exchange) :
    transformExpression tree visit e trail =
      transformParts tree visit e.exchanged
        { trail with state := (visit e trail.stack.current trail.state).2 } := by
  cases e <;> simp [transformExpression, step, transformParts, Expression.exchanged]

/-- Where a visitor goes on, the open children are transformed and put together. -/
theorem transformNode_goOn {e next : Expression} {trail : Trail σ} {state : σ}
    (reply : replying visit e trail.stack.current trail.state = (.goOn next, state)) :
    transformNode tree visit (.expression e) trail =
      ((Node.expression next).assemble
          (transformAll tree visit (Node.expression next).openChildren ⟨trail.stack, state⟩).1,
        (transformAll tree visit (Node.expression next).openChildren ⟨trail.stack, state⟩).2) := by
  obtain ⟨step, rfl⟩ := Prod.mk.inj reply
  rw [← transformParts_eq, transformNode]
  cases decision : (visit e trail.stack.current trail.state).1 with
  | descend =>
    rw [decision] at step
    obtain rfl := Reply.goOn.inj step
    rw [transformExpression_descend tree visit trail decision]
  | exchange =>
    rw [decision] at step
    obtain rfl := Reply.goOn.inj step
    rw [transformExpression_exchange tree visit trail decision]
  | replace other =>
    rw [decision] at step
    cases step

theorem transformNode_replace {e other : Expression} {trail : Trail σ} {state : σ}
    (reply : replying visit e trail.stack.current trail.state = (.replace other, state)) :
    transformNode tree visit (.expression e) trail =
      (.expression other, ⟨trail.stack, state⟩) := by
  obtain ⟨step, rfl⟩ := Prod.mk.inj reply
  rw [transformNode]
  cases decision : (visit e trail.stack.current trail.state).1 with
  | descend =>
    rw [decision] at step
    cases step
  | exchange =>
    rw [decision] at step
    cases step
  | replace other' =>
    rw [decision] at step
    obtain rfl := Reply.replace.inj step
    rw [transformExpression_replace tree visit trail decision]

/-- A node that is no expression is taken apart and put together, in its scope if it has one. -/
theorem transformNode_pass {x : Node} (plain : x.expression? = none) (trail : Trail σ) :
    transformNode tree visit x trail =
      (x.assemble (transformAll tree visit x.openChildren (trail.into tree x)).1,
        (transformAll tree visit x.openChildren (trail.into tree x)).2.outOf x) := by
  -- lists of one kind of node have a transformation of their own, which is the general one
  cases x with
  | script body =>
    show _ = (Node.assemble (.script body)
      (transformAll tree visit (body.map .statement) trail).1,
        (transformAll tree visit (body.map .statement) trail).2)
    rw [transformAll_statements, Node.assemble, Node.filterMap_statements]
    rfl
  | statement s =>
    cases s with
    | declaration kind items =>
      show _ = (Node.assemble (.statement (.declaration kind items))
        (transformAll tree visit (items.map (.declarator kind)) trail).1,
          (transformAll tree visit (items.map (.declarator kind)) trail).2)
      rw [transformAll_declarators, Node.assemble, Node.assembleStatement,
        Node.filterMap_declarators]
      rfl
    | block id body =>
      show _ = (Node.assemble (.statement (.block id body))
        (transformAll tree visit (body.map .statement) (trail.enter tree id)).1,
          (transformAll tree visit (body.map .statement) (trail.enter tree id)).2.leave)
      rw [transformAll_statements, Node.assemble, Node.assembleStatement,
        Node.filterMap_statements]
      rfl
    | conditional test consequent alternate => cases alternate <;> rfl
    | result value => cases value <;> rfl
    | _ => rfl
  | declarator kind d =>
    obtain ⟨pattern, init⟩ := d
    cases init <;> rfl
  | function f =>
    obtain ⟨id, signature, body⟩ := f
    cases body with
    | block body =>
      show _ = (Node.assemble (.function ⟨id, signature, .block body⟩)
        (transformAll tree visit (body.map .statement) (trail.enter tree id)).1,
          (transformAll tree visit (body.map .statement) (trail.enter tree id)).2.leave)
      rw [transformAll_statements, Node.assemble, Node.assembleFunction,
        Node.filterMap_statements]
      rfl
    | expression value => rfl
  | expression e => cases plain

variable {tree visit}

/-- **The transformation that is computed is the only one.** -/
theorem Transforms.eq_transformAll {i : Nat} {xs ys : List Node} {trail last : Trail σ}
    {shown : List Showing} (run : Transforms tree (replying visit) i xs trail ys last shown) :
    transformAll tree visit xs trail = (ys, last) := by
  induction run with
  | nil => rfl
  | replace reply _ ih => rw [transformAll, transformNode_replace tree visit reply, ih]
  | goOn reply _ _ ihWithin ihOthers =>
    rw [transformAll, transformNode_goOn tree visit reply, ihWithin, ihOthers]
  | pass plain _ _ ihWithin ihOthers =>
    rw [transformAll, transformNode_pass tree visit plain, ihWithin, ihOthers]

variable (tree visit)

/-- **The transformation that is computed is a run.** -/
theorem exists_transforms (i : Nat) (xs : List Node) (trail : Trail σ) :
    ∃ shown, Transforms tree (replying visit) i xs trail (transformAll tree visit xs trail).1
      (transformAll tree visit xs trail).2 shown := by
  obtain ⟨ys, last, shown, run⟩ := ends_of_isModest tree (isModest_replying visit) xs i trail
  exact ⟨shown, by rwa [run.eq_transformAll]⟩

end

/-! ## The frame -/

section

variable {σ : Type}

/-- What the visitor can rely on in a transformation, whatever it does. -/
structure KeepsFrame (visit : Expression → ScopeId → σ → Reply × σ) (xs : List Node)
    (trail : Trail σ) (ys : List Node) (last : Trail σ) (shown : List Showing) : Prop where
  /-- The scopes around the place behind are those around the place before. -/
  stack : last.stack = trail.stack
  /-- The visitor is called for what it is shown and for nothing else. -/
  asked : Asked visit trail.state shown last.state
  /-- Going on with what is shown changes nothing. -/
  neutral : (∀ s ∈ shown, s.reply = .goOn s.expression) → ys = xs
  /-- What is put in a place stands there as it is. -/
  verbatim : ∀ s ∈ shown, ∀ other, s.reply = .replace other →
    Node.StandsAt 0 ys s.position (.expression other)
  /-- Nothing below a place in which something was put is shown. -/
  closed : ∀ s ∈ shown, ∀ s' ∈ shown, ∀ other, s.reply = .replace other →
    ¬ Inside s'.position s.position
  /-- The places are those of the tree before, as long as nothing else is gone on with. -/
  shows : (∀ s ∈ shown, ∀ next, s.reply = .goOn next → next = s.expression) →
    ∀ s ∈ shown, Node.StandsAt 0 xs s.position (.expression s.expression)

variable {tree : ScopeTree}

section

variable {visit : Expression → ScopeId → σ → Reply × σ} {xs ys : List Node} {trail last : Trail σ}
  {shown : List Showing}

theorem Transforms.keepsFrame (run : Transforms tree visit 0 xs trail ys last shown) :
    KeepsFrame visit xs trail ys last shown where
  stack := run.stack
  asked := run.asked
  neutral := run.eq_of_goesOn
  verbatim := run.stands
  closed _ mem _ mem' _ replaced := run.not_inside mem mem' replaced
  shows := run.shows

theorem Transforms.eq_of_neutral (run : Transforms tree visit 0 xs trail ys last shown)
    (neutral : ∀ e scope state, (visit e scope state).1 = .goOn e) : ys = xs := by
  refine run.eq_of_goesOn fun s mem => ?_
  obtain ⟨state, replied⟩ := run.asked.exists_state mem
  rw [replied, neutral]

end

variable (tree) in
/-- A visitor that always goes on with what it is shown gets through every tree, and leaves it as it
was. -/
theorem transforms_of_neutral {visit : Expression → ScopeId → σ → Reply × σ}
    (neutral : ∀ e scope state, (visit e scope state).1 = .goOn e) (xs : List Node)
    (trail : Trail σ) : ∃ last shown, Transforms tree visit 0 xs trail xs last shown := by
  have modest : IsModest visit := fun e scope state next wentOn => by
    rw [neutral] at wentOn
    exact Nat.le_of_eq (congrArg sizeOf (Reply.goOn.inj wentOn).symm)
  obtain ⟨ys, last, shown, run⟩ := ends_of_isModest tree modest xs 0 trail
  exact ⟨last, shown, run.eq_of_neutral neutral ▸ run⟩

theorem replying_of_descend {visit : Expression → ScopeId → σ → Step × σ}
    (descends : ∀ e scope state, (visit e scope state).1 = .descend) (e : Expression)
    (scope : ScopeId) (state : σ) : (replying visit e scope state).1 = .goOn e := by
  rw [replying, descends, Step.reply]

variable (tree) (visit : Expression → ScopeId → σ → Step × σ)

theorem transforms_statements (body : List Statement) (trail : Trail σ) :
    ∃ shown, Transforms tree (replying visit) 0 (body.map .statement) trail
      ((transformStatements tree visit body trail).1.map .statement)
      (transformStatements tree visit body trail).2 shown := by
  obtain ⟨shown, run⟩ := exists_transforms tree visit 0 (body.map .statement) trail
  rw [transformAll_statements] at run
  exact ⟨shown, run⟩

theorem transforms_expression (e : Expression) (trail : Trail σ) :
    ∃ shown, Transforms tree (replying visit) 0 [.expression e] trail
      [.expression (transformExpression tree visit e trail).1]
      (transformExpression tree visit e trail).2 shown :=
  exists_transforms tree visit 0 [.expression e] trail

end

/-- Whether walks and transformations with the node map of a tree leave everything as they found it
but for what the visitor puts in. -/
structure TraversalsKeepFrame (tree : ScopeTree) : Prop where
  walkedStatements : ∀ {σ : Type} (visit : Expression → ScopeId → σ → σ) (body : List Statement)
    (trail : Trail σ), (walkStatements tree visit body trail).stack = trail.stack
  walkedExpression : ∀ {σ : Type} (visit : Expression → ScopeId → σ → σ) (e : Expression)
    (trail : Trail σ), (walkExpression tree visit e trail).stack = trail.stack
  transformedStatements : ∀ {σ : Type} (visit : Expression → ScopeId → σ → Step × σ)
    (body : List Statement) (trail : Trail σ),
    (transformStatements tree visit body trail).2.stack = trail.stack
  transformedExpression : ∀ {σ : Type} (visit : Expression → ScopeId → σ → Step × σ)
    (e : Expression) (trail : Trail σ),
    (transformExpression tree visit e trail).2.stack = trail.stack
  /-- A visitor that always descends gets the statements back. -/
  sameStatements : ∀ {σ : Type} (visit : Expression → ScopeId → σ → Step × σ),
    (∀ e scope state, (visit e scope state).1 = .descend) →
      ∀ (body : List Statement) (trail : Trail σ),
        (transformStatements tree visit body trail).1 = body
  sameExpression : ∀ {σ : Type} (visit : Expression → ScopeId → σ → Step × σ),
    (∀ e scope state, (visit e scope state).1 = .descend) →
      ∀ (e : Expression) (trail : Trail σ), (transformExpression tree visit e trail).1 = e
  /-- Whatever expressions a visitor goes on with, the frame is kept. -/
  frame : ∀ {σ : Type} {visit : Expression → ScopeId → σ → Reply × σ} {xs ys : List Node}
    {trail last : Trail σ} {shown : List Showing},
    Transforms tree visit 0 xs trail ys last shown → KeepsFrame visit xs trail ys last shown
  /-- A transformation has one result at most. -/
  unique : ∀ {σ : Type} {visit : Expression → ScopeId → σ → Reply × σ} {xs ys ys' : List Node}
    {trail last last' : Trail σ} {shown shown' : List Showing},
    Transforms tree visit 0 xs trail ys last shown →
      Transforms tree visit 0 xs trail ys' last' shown' →
        ys = ys' ∧ last = last' ∧ shown = shown'
  /-- It has one if the visitor never goes on with anything larger. -/
  ends : ∀ {σ : Type} {visit : Expression → ScopeId → σ → Reply × σ}, IsModest visit →
    ∀ xs, Ends tree visit xs
  /-- A visitor that goes on with what it is shown gets the tree back. -/
  neutral : ∀ {σ : Type} {visit : Expression → ScopeId → σ → Reply × σ},
    (∀ e scope state, (visit e scope state).1 = .goOn e) →
      ∀ (xs : List Node) (trail : Trail σ),
        ∃ last shown, Transforms tree visit 0 xs trail xs last shown
  /-- What is computed for a visitor that decides on steps is the result. -/
  computedStatements : ∀ {σ : Type} (visit : Expression → ScopeId → σ → Step × σ)
    (body : List Statement) (trail : Trail σ),
    ∃ shown, Transforms tree (replying visit) 0 (body.map .statement) trail
      ((transformStatements tree visit body trail).1.map .statement)
      (transformStatements tree visit body trail).2 shown
  computedExpression : ∀ {σ : Type} (visit : Expression → ScopeId → σ → Step × σ)
    (e : Expression) (trail : Trail σ),
    ∃ shown, Transforms tree (replying visit) 0 [.expression e] trail
      [.expression (transformExpression tree visit e trail).1]
      (transformExpression tree visit e trail).2 shown

/-- **Traversals keep the stack of scopes and everything that no visitor touches.** -/
theorem traversals_keepFrame (tree : ScopeTree) : TraversalsKeepFrame tree where
  walkedStatements visit body trail := by
    have whole := walkNode_eq_foldl tree visit (.script body) trail
    rw [walkNode] at whole
    rw [whole]
  walkedExpression visit e trail := by
    have whole := walkNode_eq_foldl tree visit (.expression e) trail
    rw [walkNode] at whole
    rw [whole]
  transformedStatements visit body trail := keepsStack tree visit (.script body) trail
  transformedExpression visit e trail := keepsStack tree visit (.expression e) trail
  sameStatements visit descends body trail := by
    obtain ⟨shown, run⟩ := transforms_statements tree visit body trail
    have same := run.eq_of_neutral (replying_of_descend descends)
    exact List.map_injective_iff.2 (fun _ _ => Node.statement.inj) same
  sameExpression visit descends e trail := by
    obtain ⟨shown, run⟩ := transforms_expression tree visit e trail
    have same := run.eq_of_neutral (replying_of_descend descends)
    exact Node.expression.inj (List.cons.inj same).1
  frame run := run.keepsFrame
  unique run run' := run.unique run'
  ends modest xs := ends_of_isModest tree modest xs
  neutral goesOn xs trail := transforms_of_neutral tree goesOn xs trail
  computedStatements visit body trail := transforms_statements tree visit body trail
  computedExpression visit e trail := transforms_expression tree visit e trail

end ReactiveMarkup
