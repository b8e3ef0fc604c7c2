import ReactiveMarkup.Proofs.NotifiedTree
import ReactiveMarkup.Proofs.ScopedWalk

/-!
# What a transformation shows

A visitor that replaces nothing is shown the expressions of a tree one after the other, with the
scopes that a walk gives them, and the tree stays as it is (`onlyShows`). But a
transformation leaves the targets of assignments and updates alone. What stands in the object of a
member that is written to is shown by a walk only, so the two traversals show the same exactly if
no member is written to anywhere in the tree (`transformation_shows_open_parts`).
-/

namespace ReactiveMarkup

open Script (DeclarationKind Expression Target Function Statement Declarator Node)

namespace Script.Node

/-- The positions of a node outside the objects of members that are written to, in source order. -/
def openPositions (x : Node) : List (List Nat) := x.positions.filter fun p => !x.entersTarget p

/-- The expressions at these positions, each with the scope that the node map gives its position. -/
def openVisits (t : ScopeTree) (scope : ScopeId) (x : Node) : List (Expression × ScopeId) :=
  x.shownAt x.openPositions (x.scopeAt t scope)

theorem openVisits_eq (t : ScopeTree) (scope : ScopeId) (x : Node) :
    x.openVisits t scope = x.expression?.toList.map (·, scope) ++
      x.children.zipIdx.flatMap fun child =>
        if x.isTargetObject child.2 then [] else child.1.openVisits t (x.innerScope t scope) := by
  have below : ∀ child ∈ x.children.zipIdx,
      (((positions child.1).map (child.2 :: ·)).filter fun p => !x.entersTarget p).filterMap
          (fun p => (x.expressionAt? p).map (·, x.scopeAt t scope p)) =
        if x.isTargetObject child.2 then []
        else child.1.openVisits t (x.innerScope t scope) := by
    rintro ⟨c, i⟩ mem
    have child : x.children[i]? = some c := List.mem_zipIdx_iff_getElem?.1 mem
    rw [List.filter_map, List.filterMap_map]
    cases object : x.isTargetObject i with
    | true => simp [Function.comp_def, entersTarget, object]
    | false =>
      simp [Function.comp_def, entersTarget, object, child, openVisits, openPositions, shownAt,
        expressionAt?, at?, scopeAt]
  unfold openVisits shownAt openPositions
  rw [positions_eq, List.filter_cons_of_pos rfl, List.filterMap_cons, List.filter_flatMap,
    List.filterMap_flatMap, List.flatMap_congr below]
  cases x <;> rfl

/-- A node that writes to nothing has all its children open. -/
theorem openVisits_of_not_mutation {x : Node} (plain : x.isMutation = false) (t : ScopeTree)
    (scope : ScopeId) :
    x.openVisits t scope = x.expression?.toList.map (·, scope) ++
      x.children.flatMap (openVisits t (x.innerScope t scope)) := by
  rw [openVisits_eq]
  simp only [isTargetObject_eq_false plain, Bool.false_eq_true, if_false]
  conv => rhs; rw [← List.zipIdx_map_fst 0 x.children, List.flatMap_map]

/-- An expression that writes to nothing comes before its parts, in the scope where they are. -/
theorem openVisits_expression {e : Expression} (plain : (Node.expression e).isMutation = false)
    (t : ScopeTree) (scope : ScopeId) :
    (Node.expression e).openVisits t scope =
      (e, scope) :: (ofExpression e).flatMap (openVisits t scope) :=
  openVisits_of_not_mutation plain t scope

/-- A statement that opens no scope has its parts in the scope where it stands. -/
theorem openVisits_statement {s : Statement} (plain : (Node.statement s).id? = none)
    (t : ScopeTree) (scope : ScopeId) :
    (Node.statement s).openVisits t scope = (ofStatement s).flatMap (openVisits t scope) := by
  rw [openVisits_of_not_mutation rfl, innerScope, plain]
  rfl

/-- Of an assignment the right-hand side is open, and of an update nothing. -/
theorem openVisits_assignment (t : ScopeTree) (scope : ScopeId) (operator : String)
    (target : Target) (right : Expression) :
    (Node.expression (.assignment operator target right)).openVisits t scope =
      (.assignment operator target right, scope) :: (Node.expression right).openVisits t scope := by
  rw [openVisits_eq]
  cases target <;>
    simp [children, ofExpression, Target.object?, isTargetObject, Expression.target?, expression?,
      innerScope, id?]

theorem openVisits_update (t : ScopeTree) (scope : ScopeId) (operator : String) (leading : Bool)
    (target : Target) :
    (Node.expression (.update operator leading target)).openVisits t scope =
      [(.update operator leading target, scope)] := by
  rw [openVisits_eq]
  cases target <;>
    simp [children, ofExpression, Target.object?, isTargetObject, Expression.target?, expression?]

end Script.Node

/-! ## A visitor that replaces nothing -/

/-- The visitor that looks at everything it is shown and replaces nothing. -/
def watching {σ : Type} (look : Expression → ScopeId → σ → σ) (e : Expression) (scope : ScopeId)
    (state : σ) : Step × σ :=
  (.descend, look e scope state)

section

variable {σ : Type} (tree : ScopeTree) (look : Expression → ScopeId → σ → σ)

/-- Watching a node, the visitor is shown the expressions outside the targets, and the node and the
stack stay as they are. -/
def OnlyShows (x : Node) : Prop :=
  ∀ trail : Trail σ, transformNode tree (watching look) x trail =
    (x, ⟨trail.stack, handOver look (x.openVisits tree trail.stack.current) trail.state⟩)

variable {tree look}

theorem OnlyShows.expression {e : Expression} (h : OnlyShows tree look (.expression e))
    (trail : Trail σ) :
    transformExpression tree (watching look) e trail =
      (e, ⟨trail.stack,
        handOver look ((Node.expression e).openVisits tree trail.stack.current) trail.state⟩) := by
  have whole := h trail
  simp only [transformNode, Prod.mk.injEq, Node.expression.injEq] at whole
  exact Prod.ext whole.1 whole.2

theorem OnlyShows.statement {s : Statement} (h : OnlyShows tree look (.statement s))
    (trail : Trail σ) :
    transformStatement tree (watching look) s trail =
      (s, ⟨trail.stack,
        handOver look ((Node.statement s).openVisits tree trail.stack.current) trail.state⟩) := by
  have whole := h trail
  simp only [transformNode, Prod.mk.injEq, Node.statement.injEq] at whole
  exact Prod.ext whole.1 whole.2

theorem OnlyShows.function {f : Function} (h : OnlyShows tree look (.function f))
    (trail : Trail σ) :
    transformFunction tree (watching look) f trail =
      (f, ⟨trail.stack,
        handOver look ((Node.function f).openVisits tree trail.stack.current) trail.state⟩) := by
  have whole := h trail
  simp only [transformNode, Prod.mk.injEq, Node.function.injEq] at whole
  exact Prod.ext whole.1 whole.2

theorem transformExpressions_watching {es : List Expression}
    (each : ∀ y ∈ es.map Node.expression, OnlyShows tree look y) (trail : Trail σ) :
    transformExpressions tree (watching look) es trail =
      (es, ⟨trail.stack,
        handOver look ((es.map Node.expression).flatMap
          (Node.openVisits tree trail.stack.current)) trail.state⟩) := by
  induction es generalizing trail with
  | nil => rfl
  | cons e rest ih =>
    have first := (each (.expression e) List.mem_cons_self).expression trail
    have others := ih fun y mem => each y (List.mem_cons_of_mem _ mem)
    rw [transformExpressions, first]
    dsimp only
    rw [others, List.map_cons, List.flatMap_cons, handOver_append]

theorem transformStatements_watching {ss : List Statement}
    (each : ∀ y ∈ ss.map Node.statement, OnlyShows tree look y) (trail : Trail σ) :
    transformStatements tree (watching look) ss trail =
      (ss, ⟨trail.stack,
        handOver look ((ss.map Node.statement).flatMap
          (Node.openVisits tree trail.stack.current)) trail.state⟩) := by
  induction ss generalizing trail with
  | nil => rfl
  | cons s rest ih =>
    have first := (each (.statement s) List.mem_cons_self).statement trail
    have others := ih fun y mem => each y (List.mem_cons_of_mem _ mem)
    rw [transformStatements, first]
    dsimp only
    rw [others, List.map_cons, List.flatMap_cons, handOver_append]

theorem transformDeclarators_watching {kind : DeclarationKind} {ds : List Declarator}
    (each : ∀ y ∈ ds.map (Node.declarator kind), OnlyShows tree look y) (trail : Trail σ) :
    transformDeclarators tree (watching look) ds trail =
      (ds, ⟨trail.stack,
        handOver look ((ds.map (Node.declarator kind)).flatMap
          (Node.openVisits tree trail.stack.current)) trail.state⟩) := by
  induction ds generalizing trail with
  | nil => rfl
  | cons d rest ih =>
    have first := each (.declarator kind d) List.mem_cons_self trail
    have others := ih fun y mem => each y (List.mem_cons_of_mem _ mem)
    obtain ⟨pattern, init⟩ := d
    cases init with
    | none =>
      -- a declarator without an initial value shows nothing
      have nothing : (Node.declarator kind ⟨pattern, none⟩).openVisits tree trail.stack.current =
          [] := by
        rw [Node.openVisits_of_not_mutation rfl]
        rfl
      rw [transformDeclarators, others, List.map_cons, List.flatMap_cons, nothing]
      rfl
    | some e =>
      simp only [transformNode, Prod.mk.injEq, Node.declarator.injEq, Declarator.mk.injEq,
        Option.some.injEq, true_and] at first
      rw [transformDeclarators, first.1, first.2, others, List.map_cons, List.flatMap_cons,
        handOver_append]

theorem onlyShows_function {f : Function}
    (each : ∀ y ∈ Node.ofFunction f, OnlyShows tree look y) :
    OnlyShows tree look (.function f) := by
  intro trail
  have entered : ∀ id, (trail.enter tree id).stack.current =
      (Node.function ⟨id, f.signature, f.body⟩).innerScope tree trail.stack.current := by
    intro id
    simp [Trail.enter, ScopeStack.enter, ScopeStack.current, Node.innerScope, Node.id?]
  obtain ⟨id, signature, body⟩ := f
  rw [Node.openVisits_of_not_mutation rfl]
  cases body with
  | block body =>
    have inner := transformStatements_watching each (trail.enter tree id)
    rw [transformNode, transformFunction, inner, entered]
    rfl
  | expression value =>
    have inner := (each (.expression value) List.mem_cons_self).expression (trail.enter tree id)
    rw [transformNode, transformFunction, inner, entered]
    simp [Node.expression?, Node.children, Node.ofFunction, Trail.leave, Trail.enter]

theorem onlyShows_statement {s : Statement}
    (each : ∀ y ∈ Node.ofStatement s, OnlyShows tree look y) :
    OnlyShows tree look (.statement s) := by
  intro trail
  cases s with
  | declaration kind items =>
    rw [transformNode, transformStatement, transformDeclarators_watching each,
      Node.openVisits_statement rfl]
    rfl
  | function f =>
    have inner := (each (.function f) List.mem_cons_self).function trail
    rw [transformNode, transformStatement, inner, Node.openVisits_statement rfl]
    simp [Node.ofStatement]
  | expression e =>
    have inner := (each (.expression e) List.mem_cons_self).expression trail
    rw [transformNode, transformStatement, inner, Node.openVisits_statement rfl]
    simp [Node.ofStatement]
  | block id body =>
    -- the only statement whose parts stand in a scope of its own
    have entered : (trail.enter tree id).stack.current =
        (Node.statement (.block id body)).innerScope tree trail.stack.current := by
      simp [Trail.enter, ScopeStack.enter, ScopeStack.current, Node.innerScope, Node.id?]
    have inner := transformStatements_watching each (trail.enter tree id)
    rw [transformNode, transformStatement, inner, entered, Node.openVisits_of_not_mutation rfl]
    rfl
  | conditional test consequent alternate =>
    have first := (each (.expression test) List.mem_cons_self).expression
    have second := (each (.statement consequent) (by simp [Node.ofStatement])).statement
    rw [Node.openVisits_statement rfl]
    cases alternate with
    | none =>
      simp [transformNode, transformStatement, first, second, Node.ofStatement, handOver_append]
    | some alternate =>
      have third := (each (.statement alternate) (by simp [Node.ofStatement])).statement
      simp [transformNode, transformStatement, first, second, third, Node.ofStatement,
        handOver_append]
  | result value =>
    rw [Node.openVisits_statement rfl]
    cases value with
    | none => rfl
    | some e =>
      have inner := (each (.expression e) List.mem_cons_self).expression trail
      rw [transformNode, transformStatement, inner]
      simp [Node.ofStatement]
  | labeled label body =>
    have inner := (each (.statement body) List.mem_cons_self).statement trail
    rw [Node.openVisits_statement rfl, transformNode, transformStatement, inner]
    simp [Node.ofStatement]
  | verbatim source references =>
    rw [Node.openVisits_statement rfl]
    rfl

theorem onlyShows_expression {e : Expression}
    (each : ∀ y ∈ Node.ofExpression e, OnlyShows tree look y) :
    OnlyShows tree look (.expression e) := by
  intro trail
  rw [transformNode, transformExpression_descend tree (watching look) trail rfl]
  cases e with
  | assignment operator target right =>
    have inner := (each (.expression right) (by simp [Node.ofExpression])).expression
    rw [transformParts, inner, Node.openVisits_assignment]
    rfl
  | update operator leading target =>
    rw [Node.openVisits_update]
    rfl
  | binary left operator right =>
    have first := (each (.expression left) (by simp [Node.ofExpression])).expression
    have second := (each (.expression right) (by simp [Node.ofExpression])).expression
    rw [Node.openVisits_expression rfl]
    simp [transformParts, first, second, Node.ofExpression, handOver, watching]
  | call callee arguments optional =>
    have first := (each (.expression callee) List.mem_cons_self).expression
    have others := transformExpressions_watching fun y mem => each y (List.mem_cons_of_mem _ mem)
    rw [Node.openVisits_expression rfl]
    simp [transformParts, first, others, Node.ofExpression, handOver, watching]
  | member object property optional =>
    have inner := (each (.expression object) List.mem_cons_self).expression
    rw [Node.openVisits_expression rfl]
    simp [transformParts, inner, Node.ofExpression, handOver, watching]
  | parenthesized inner =>
    have inner := (each (.expression inner) List.mem_cons_self).expression
    rw [Node.openVisits_expression rfl]
    simp [transformParts, inner, Node.ofExpression, handOver, watching]
  | sequence items =>
    have inner := transformExpressions_watching each
    rw [Node.openVisits_expression rfl]
    simp [transformParts, inner, Node.ofExpression, handOver, watching]
  | function f =>
    have inner := (each (.function f) List.mem_cons_self).function
    rw [Node.openVisits_expression rfl]
    simp [transformParts, inner, Node.ofExpression, handOver, watching]
  | identifier name =>
    rw [Node.openVisits_expression rfl]
    rfl
  | verbatim source references =>
    rw [Node.openVisits_expression rfl]
    rfl

variable (tree look)

/-- **A transformation that replaces nothing** shows what stands outside the targets, and changes
neither the tree nor the stack. -/
theorem onlyShows (x : Node) : OnlyShows tree look x := by
  induction x using Node.induction with
  | step x ih =>
    cases x with
    | script body =>
      intro trail
      rw [transformNode, transformStatements_watching ih, Node.openVisits_of_not_mutation rfl]
      rfl
    | statement s => exact onlyShows_statement ih
    | declarator kind d =>
      intro trail
      obtain ⟨pattern, init⟩ := d
      rw [Node.openVisits_of_not_mutation rfl]
      cases init with
      | none => rfl
      | some e =>
        have inner := (ih (.expression e) List.mem_cons_self).expression trail
        rw [transformNode, inner]
        simp [Node.expression?, Node.children, Node.innerScope, Node.id?]
    | function f => exact onlyShows_function ih
    | expression e => exact onlyShows_expression ih

end

/-! ## Comparing the traversals -/

namespace Script.Node

/-- Whether a member is written to at a position. -/
def WritesMember (x : Node) (p : List Nat) : Prop :=
  ∃ m, x.at? p = some (.expression m) ∧ (m.target?.bind Target.object?).isSome = true

theorem entersTarget_append {x y : Node} {p : List Nat} (found : x.at? p = some y) (q : List Nat) :
    x.entersTarget (p ++ q) = (x.entersTarget p || y.entersTarget q) := by
  induction p generalizing x with
  | nil =>
    cases found
    rfl
  | cons i rest ih =>
    obtain ⟨c, child, found⟩ := Option.bind_eq_some_iff.1 found
    simp [entersTarget, child, ih found, Bool.or_assoc]

/-- Where a member is written to, its object is an expression inside a target. -/
theorem WritesMember.exists_object {x : Node} {p : List Nat} (writes : x.WritesMember p) :
    ∃ object, x.at? (p ++ [0]) = some (.expression object) ∧ x.entersTarget (p ++ [0]) = true := by
  obtain ⟨m, found, writes⟩ := writes
  obtain ⟨object, target⟩ := Option.isSome_iff_exists.1 writes
  obtain ⟨target, here, isObject⟩ := Option.bind_eq_some_iff.1 target
  refine ⟨object, ?_, ?_⟩
  · rw [at?_append, found]
    cases m with
    | assignment operator target' right =>
      cases here
      simp [at?, children, ofExpression, isObject]
    | update operator leading target' =>
      cases here
      simp [at?, children, ofExpression, isObject]
    | _ => cases here
  · rw [entersTarget_append found]
    simp [entersTarget, isTargetObject, here, isObject]

/-- A position lies inside a target if a member is written to around it. -/
theorem exists_writesMember {x y : Node} {p : List Nat} (found : x.at? p = some y)
    (enters : x.entersTarget p = true) : ∃ q, x.WritesMember q := by
  induction p generalizing x with
  | nil => cases enters
  | cons i rest ih =>
    obtain ⟨c, child, found⟩ := Option.bind_eq_some_iff.1 found
    rw [entersTarget, child, Bool.or_eq_true] at enters
    rcases enters with object | deeper
    · refine ⟨[], ?_⟩
      cases x with
      | expression m =>
        cases i with
        | zero => exact ⟨m, rfl, object⟩
        | succ i => cases object
      | _ => cases object
    · obtain ⟨q, m, inside, writes⟩ := ih found deeper
      refine ⟨i :: q, m, ?_, writes⟩
      rw [at?, child]
      exact inside

/-- All expressions of a node are outside the targets if and only if no member is written to. -/
theorem openVisits_eq_visits_iff (t : ScopeTree) (scope : ScopeId) (x : Node) :
    x.openVisits t scope = x.visits t scope ↔ ∀ p, ¬ x.WritesMember p := by
  constructor
  · intro same p writes
    obtain ⟨object, found, enters⟩ := writes.exists_object
    -- the lists are as long as the lists of the positions of expressions
    have lengths := congrArg List.length same
    rw [openVisits, visits, shown, shownAt, shownAt, List.length_filterMap_eq_countP,
      List.length_filterMap_eq_countP, openPositions, List.countP_eq_length_filter,
      List.countP_eq_length_filter, List.filter_comm] at lengths
    have all := List.filter_sublist.eq_of_length lengths
    have mem : p ++ [0] ∈ x.positions.filter fun p =>
        ((x.expressionAt? p).map (·, x.scopeAt t scope p)).isSome := by
      refine List.mem_filter.2 ⟨mem_positions_iff.2 ⟨_, found⟩, ?_⟩
      simp [expressionAt?_eq_some_iff.2 found]
    rw [← all] at mem
    have free := (List.mem_filter.1 mem).2
    simp [enters] at free
  · intro free
    have all : x.openPositions = x.positions := by
      refine List.filter_eq_self.2 fun p mem => ?_
      obtain ⟨y, found⟩ := mem_positions_iff.1 mem
      cases enters : x.entersTarget p with
      | false => rfl
      | true =>
        obtain ⟨q, writes⟩ := exists_writesMember found enters
        exact absurd writes (free q)
    rw [openVisits, visits, shown, all]

end Script.Node

/-- Notes what a traversal shows. -/
def note (e : Expression) (scope : ScopeId) (seen : List (Expression × ScopeId)) :
    List (Expression × ScopeId) :=
  seen ++ [(e, scope)]

theorem handOver_note (items seen : List (Expression × ScopeId)) :
    handOver note items seen = seen ++ items := by
  induction items generalizing seen with
  | nil => exact (List.append_nil seen).symm
  | cons item rest ih =>
    show handOver note rest (seen ++ [item]) = _
    rw [ih, List.append_assoc, List.singleton_append]

/-- What it means for a walk and a transformation to show what they do of a node: the sequences
that they show, and when these are the same. -/
structure Compares (tree : ScopeTree) (x : Node)
    (walked transformed : List (Expression × ScopeId)) : Prop where
  /-- The walk shows all expressions. -/
  walk : walked = x.shownAt x.positions (x.scopeAt tree rootScope)
  /-- The transformation shows those outside the objects of members that are written to, in the same
  order and with the same scopes. -/
  transformation : transformed = x.shownAt x.openPositions (x.scopeAt tree rootScope)
  /-- The sequences are the same exactly if no member is written to. -/
  alike : transformed = walked ↔ ∀ p, ¬ x.WritesMember p

theorem compares (tree : ScopeTree) (x : Node) :
    Compares tree x (walkNode tree note x ⟨.start, []⟩).state
      (transformNode tree (watching note) x ⟨.start, []⟩).2.state := by
  have walked : (walkNode tree note x ⟨.start, []⟩).state = x.visits tree rootScope := by
    rw [walkNode_eq_foldl]
    exact handOver_note _ []
  have transformed : (transformNode tree (watching note) x ⟨.start, []⟩).2.state =
      x.openVisits tree rootScope := by
    rw [onlyShows]
    exact handOver_note _ []
  rw [walked, transformed]
  exact ⟨rfl, rfl, x.openVisits_eq_visits_iff tree rootScope⟩

/-- **The two traversals compared.** For every scope tree, of any statements and of any expression,
a transformation that replaces nothing shows what a walk shows, save what stands in the object of a
member that is written to. -/
theorem transformation_shows_open_parts (tree : ScopeTree) (body : List Statement)
    (e : Expression) :
    Compares tree (.script body) (walkStatements tree note body ⟨.start, []⟩).state
        (transformStatements tree (watching note) body ⟨.start, []⟩).2.state ∧
      Compares tree (.expression e) (walkExpression tree note e ⟨.start, []⟩).state
        (transformExpression tree (watching note) e ⟨.start, []⟩).2.state :=
  ⟨compares tree (.script body), compares tree (.expression e)⟩

/-- `make(n).x = 1` -/
def writingMember : Expression :=
  .assignment "=" (.member (.call (.identifier "make") [.identifier "n"] false) "x")
    (.verbatim "1" [])

/-- A walk shows `make` and `n`, and a transformation does not. -/
theorem unshown_of_writingMember :
    (walkExpression .start note writingMember ⟨.start, []⟩).state =
        [(writingMember, rootScope),
          (.call (.identifier "make") [.identifier "n"] false, rootScope),
          (.identifier "make", rootScope), (.identifier "n", rootScope),
          (.verbatim "1" [], rootScope)] ∧
      (transformExpression .start (watching note) writingMember ⟨.start, []⟩).2.state =
        [(writingMember, rootScope), (.verbatim "1" [], rootScope)] ∧
      (transformExpression .start (watching note) writingMember ⟨.start, []⟩).2.state ≠
        (walkExpression .start note writingMember ⟨.start, []⟩).state := by
  have walked : (walkExpression .start note writingMember ⟨.start, []⟩).state =
      [(writingMember, rootScope),
        (.call (.identifier "make") [.identifier "n"] false, rootScope),
        (.identifier "make", rootScope), (.identifier "n", rootScope),
        (.verbatim "1" [], rootScope)] := rfl
  have transformed :
      (transformExpression .start (watching note) writingMember ⟨.start, []⟩).2.state =
        [(writingMember, rootScope), (.verbatim "1" [], rootScope)] := by
    simp [transformExpression, writingMember, watching, note, ScopeStack.current, ScopeStack.start]
  refine ⟨walked, transformed, fun same => ?_⟩
  rw [walked, transformed] at same
  exact absurd (congrArg List.length same) (by decide)

end ReactiveMarkup
