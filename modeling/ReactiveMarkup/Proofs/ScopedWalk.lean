import Mathlib.Data.List.Basic
import ReactiveMarkup.Proofs.ResolvedPosition
import ReactiveMarkup.Scope.Traversal

/-!
# What a walk shows

A walk threads a stack of scopes and the state of a visitor through a whole tree. Seen from outside
it is a plain fold: the expressions of the tree in source order, outer ones before inner ones, are
handed to the visitor one after the other, and behind every node the stack is the one before it
(`walkNode_eq_foldl`). The scope that comes with an expression is the one that the node map gives
its position (`Node.visits`).

When the functions and blocks of a program carry distinct ids, the scope found through the node map
is the scope with which the resolver came to the position (`scopeAt_program`).
-/

namespace ReactiveMarkup

open Script (DeclarationKind Expression Function Statement Declarator Node)

namespace Script.Node

/-! ## Positions in source order -/

/-- The positions of a node and of everything inside it, outer ones first and in source order. -/
def positions (x : Node) : List (List Nat) :=
  [] :: x.children.attach.zipIdx.flatMap fun (⟨y, _⟩, i) => (positions y).map (i :: ·)
termination_by sizeOf x
decreasing_by exact sizeOf_lt_of_mem_children ‹_›

theorem positions_eq (x : Node) :
    x.positions = [] :: x.children.zipIdx.flatMap fun child =>
      (positions child.1).map (child.2 :: ·) := by
  rw [positions]
  conv => rhs; rw [← List.attach_map_subtype_val x.children, List.zipIdx_map, List.flatMap_map]
  rfl

/-- The expression that a node is. -/
def expression? : Node → Option Expression
  | .expression e => some e
  | _ => none

/-- The expression at a position. -/
def expressionAt? (x : Node) (p : List Nat) : Option Expression := (x.at? p).bind expression?

theorem expressionAt?_eq_some_iff {x : Node} {p : List Nat} {e : Expression} :
    x.expressionAt? p = some e ↔ x.at? p = some (.expression e) := by
  unfold expressionAt?
  constructor
  · intro found
    obtain ⟨y, found, same⟩ := Option.bind_eq_some_iff.1 found
    cases y with
    | expression e' =>
      cases same
      exact found
    | _ => cases same
  · intro found
    rw [found]
    rfl

theorem mem_positions_iff {x : Node} {p : List Nat} : p ∈ x.positions ↔ ∃ y, x.at? p = some y := by
  induction p generalizing x with
  | nil =>
    rw [positions_eq]
    simp [at?]
  | cons i rest ih =>
    rw [positions_eq]
    constructor
    · intro mem
      obtain ⟨⟨c, j⟩, child, mem⟩ := List.mem_flatMap.1 (List.mem_of_ne_of_mem (by simp) mem)
      obtain ⟨rest', mem', same⟩ := List.mem_map.1 mem
      obtain ⟨rfl, rfl⟩ := List.cons.inj same
      obtain ⟨y, found⟩ := ih.1 mem'
      refine ⟨y, ?_⟩
      rw [at?, List.mem_zipIdx_iff_getElem?.1 child]
      exact found
    · rintro ⟨y, found⟩
      obtain ⟨c, child, found⟩ := Option.bind_eq_some_iff.1 found
      refine List.mem_cons_of_mem _ (List.mem_flatMap.2 ⟨(c, i), ?_, ?_⟩)
      · exact List.mem_zipIdx_iff_getElem?.2 child
      · exact List.mem_map.2 ⟨rest, ih.2 ⟨y, found⟩, rfl⟩

/-- The expressions at some positions, each with what a function says of its position. -/
def shownAt (x : Node) (positions : List (List Nat)) (scope : List Nat → ScopeId) :
    List (Expression × ScopeId) :=
  positions.filterMap fun p => (x.expressionAt? p).map (·, scope p)

/-- All expressions of a node in source order, each with what a function says of its position. -/
def shown (x : Node) (scope : List Nat → ScopeId) : List (Expression × ScopeId) :=
  x.shownAt x.positions scope

/-- The expressions of a node in source order, each with the scope that the node map gives its
position. -/
def visits (t : ScopeTree) (scope : ScopeId) (x : Node) : List (Expression × ScopeId) :=
  x.shown (x.scopeAt t scope)

theorem mem_shownAt_iff {x : Node} {positions : List (List Nat)} {scope : List Nat → ScopeId}
    {e : Expression} {k : ScopeId} :
    (e, k) ∈ x.shownAt positions scope ↔
      ∃ p ∈ positions, x.at? p = some (.expression e) ∧ k = scope p := by
  unfold shownAt
  rw [List.mem_filterMap]
  refine exists_congr fun p => and_congr_right fun _ => ?_
  rw [← expressionAt?_eq_some_iff]
  cases x.expressionAt? p with
  | none => simp
  | some e' => simp [eq_comm]

theorem shownAt_congr {x : Node} {positions : List (List Nat)} {scope scope' : List Nat → ScopeId}
    (same : ∀ p ∈ positions, scope p = scope' p) :
    x.shownAt positions scope = x.shownAt positions scope' := by
  refine List.filterMap_congr fun p mem => ?_
  rw [same p mem]

/-- A node is shown first, then its children in order. -/
theorem shown_eq (x : Node) (scope : List Nat → ScopeId) :
    x.shown scope = x.expression?.toList.map (·, scope []) ++
      x.children.zipIdx.flatMap fun child => child.1.shown fun p => scope (child.2 :: p) := by
  have here : x.expressionAt? [] = x.expression? := rfl
  have below : ∀ child ∈ x.children.zipIdx,
      ((positions child.1).map (child.2 :: ·)).filterMap
          (fun p => (x.expressionAt? p).map (·, scope p)) =
        child.1.shown fun p => scope (child.2 :: p) := by
    rintro ⟨c, i⟩ mem
    have child : x.children[i]? = some c := List.mem_zipIdx_iff_getElem?.1 mem
    rw [List.filterMap_map]
    refine List.filterMap_congr fun p _ => ?_
    simp [expressionAt?, at?, child]
  rw [← List.flatMap_congr below, ← List.filterMap_flatMap]
  conv => lhs; rw [shown, shownAt, positions_eq, List.filterMap_cons, here]
  cases x.expression? <;> rfl

theorem visits_eq (t : ScopeTree) (scope : ScopeId) (x : Node) :
    x.visits t scope = x.expression?.toList.map (·, scope) ++
      x.children.flatMap (visits t (x.innerScope t scope)) := by
  unfold visits
  rw [shown_eq]
  refine congrArg₂ _ rfl ?_
  have below : ∀ child ∈ x.children.zipIdx,
      (child.1.shown fun p => x.scopeAt t scope (child.2 :: p)) =
        child.1.shown (child.1.scopeAt t (x.innerScope t scope)) := by
    rintro ⟨c, i⟩ mem
    have child : x.children[i]? = some c := List.mem_zipIdx_iff_getElem?.1 mem
    refine shownAt_congr fun p _ => ?_
    simp [scopeAt, child]
  rw [List.flatMap_congr below]
  conv => rhs; rw [← List.zipIdx_map_fst 0 x.children, List.flatMap_map]

end Script.Node

/-! ## The walk as a fold -/

section

variable {σ : Type} (tree : ScopeTree) (visit : Expression → ScopeId → σ → σ)

/-- Shows the expressions of a node. -/
def walkNode (x : Node) (trail : Trail σ) : Trail σ :=
  match x with
  | .script body => walkStatements tree visit body trail
  | .statement s => walkStatement tree visit s trail
  | .declarator _ d => walkDeclarators tree visit [d] trail
  | .function f => walkFunction tree visit f trail
  | .expression e => walkExpression tree visit e trail

/-- Shows the expressions of some nodes. -/
def walkAll (xs : List Node) (trail : Trail σ) : Trail σ :=
  xs.foldl (fun trail x => walkNode tree visit x trail) trail

/-- Shows a node itself, if it is an expression. -/
def showNode (x : Node) (trail : Trail σ) : Trail σ :=
  match x with
  | .expression e => { trail with state := visit e trail.stack.current trail.state }
  | _ => trail

theorem walkExpressions_eq (es : List Expression) (trail : Trail σ) :
    walkExpressions tree visit es trail = walkAll tree visit (es.map .expression) trail := by
  induction es generalizing trail with
  | nil => rfl
  | cons e rest ih => exact ih _

theorem walkStatements_eq (ss : List Statement) (trail : Trail σ) :
    walkStatements tree visit ss trail = walkAll tree visit (ss.map .statement) trail := by
  induction ss generalizing trail with
  | nil => rfl
  | cons s rest ih => exact ih _

theorem walkDeclarators_eq (kind : DeclarationKind) (ds : List Declarator) (trail : Trail σ) :
    walkDeclarators tree visit ds trail =
      walkAll tree visit (ds.map (.declarator kind)) trail := by
  induction ds generalizing trail with
  | nil => rfl
  | cons d rest ih =>
    obtain ⟨pattern, init⟩ := d
    cases init <;> exact ih _

/-- A walk shows a node first and then its children, within the scope of the node if it has one. -/
theorem walkNode_eq (x : Node) (trail : Trail σ) :
    walkNode tree visit x trail =
      match x.id? with
      | some id => (walkAll tree visit x.children ((showNode visit x trail).enter tree id)).leave
      | none => walkAll tree visit x.children (showNode visit x trail) := by
  cases x with
  | script body => exact walkStatements_eq tree visit body trail
  | statement s =>
    cases s with
    | declaration kind items => exact walkDeclarators_eq tree visit kind items trail
    | block id body => exact congrArg Trail.leave (walkStatements_eq tree visit body _)
    | conditional test consequent alternate => cases alternate <;> rfl
    | result value => cases value <;> rfl
    | _ => rfl
  | declarator kind d =>
    obtain ⟨pattern, init⟩ := d
    cases init <;> rfl
  | function f =>
    obtain ⟨id, signature, body⟩ := f
    cases body with
    | block body => exact congrArg Trail.leave (walkStatements_eq tree visit body _)
    | expression value => rfl
  | expression e =>
    cases e with
    | assignment operator target right => cases target <;> rfl
    | update operator leading target => cases target <;> rfl
    | call callee arguments optional => exact walkExpressions_eq tree visit arguments _
    | sequence items => exact walkExpressions_eq tree visit items _
    | _ => rfl

/-- Hands some expressions to the visitor, one after the other. -/
def handOver (items : List (Expression × ScopeId)) (state : σ) : σ :=
  items.foldl (fun state item => visit item.1 item.2 state) state

theorem handOver_append (items more : List (Expression × ScopeId)) (state : σ) :
    handOver visit (items ++ more) state = handOver visit more (handOver visit items state) :=
  List.foldl_append

variable {tree visit}

theorem walkAll_eq_foldl {xs : List Node}
    (each : ∀ x ∈ xs, ∀ trail : Trail σ, walkNode tree visit x trail =
      ⟨trail.stack, handOver visit (x.visits tree trail.stack.current) trail.state⟩)
    (trail : Trail σ) :
    walkAll tree visit xs trail =
      ⟨trail.stack,
        handOver visit (xs.flatMap (Node.visits tree trail.stack.current)) trail.state⟩ := by
  induction xs generalizing trail with
  | nil => rfl
  | cons x rest ih =>
    have first := each x List.mem_cons_self trail
    have others := ih fun y mem => each y (List.mem_cons_of_mem x mem)
    show walkAll tree visit rest (walkNode tree visit x trail) = _
    rw [first, others, List.flatMap_cons, handOver_append]

variable (tree visit)

/-- **A walk is a fold over the expressions of a tree**, and leaves the stack as it was. -/
theorem walkNode_eq_foldl (x : Node) (trail : Trail σ) :
    walkNode tree visit x trail =
      ⟨trail.stack, handOver visit (x.visits tree trail.stack.current) trail.state⟩ := by
  induction x using Node.induction generalizing trail with
  | step x ih =>
    have own : (showNode visit x trail).state =
        handOver visit (x.expression?.toList.map (·, trail.stack.current)) trail.state := by
      cases x <;> rfl
    have kept : (showNode visit x trail).stack = trail.stack := by cases x <;> rfl
    rw [walkNode_eq, Node.visits_eq, handOver_append, ← own]
    cases has : x.id? with
    | none =>
      rw [walkAll_eq_foldl ih, kept]
      simp [Node.innerScope, has]
    | some id =>
      have entered : ((showNode visit x trail).enter tree id).stack.current =
          x.innerScope tree trail.stack.current := by
        simp [Trail.enter, ScopeStack.enter, ScopeStack.current, Node.innerScope, has, kept]
      show (walkAll tree visit x.children ((showNode visit x trail).enter tree id)).leave = _
      rw [walkAll_eq_foldl ih, entered, ← kept]
      rfl

/-- Walking a script and then its template expressions is walking the program. -/
theorem walk_program (script : List Statement) (templates : List Expression) (state : σ) :
    walkExpressions tree visit templates (walkStatements tree visit script ⟨.start, state⟩) =
      ⟨.start, handOver visit ((program script templates).visits tree rootScope) state⟩ := by
  have wrapped : ∀ (es : List Expression) (trail : Trail σ),
      walkAll tree visit (es.map .expression) trail =
        walkAll tree visit ((es.map Statement.expression).map Node.statement) trail := by
    intro es
    induction es with
    | nil => intro trail; rfl
    | cons e rest ih => intro trail; exact ih _
  have whole := walkNode_eq_foldl tree visit (program script templates) ⟨.start, state⟩
  rw [walkExpressions_eq, walkStatements_eq, wrapped]
  refine Eq.trans ?_ whole
  rw [program, walkNode, walkStatements_eq, List.map_append, walkAll, walkAll, walkAll,
    List.foldl_append]

end

/-! ## The scope that the resolver used -/

namespace ScopeTree

/-- Through a node map that leads to the scopes that the resolver opened, a position has the scope
with which the resolver came there. -/
theorem scopeAt_eq_comesTo {t : ScopeTree} {scope : ScopeId} {x y : Node} {r : Resolution}
    {p : List Nat} (found : x.at? p = some y)
    (mapped : ∀ q z id, x.at? q = some z → z.id? = some id →
      t.scopeOf? id = some (Resolution.comesTo scope x r q).2.nextScope) :
    x.scopeAt t scope p = (Resolution.comesTo scope x r p).1 := by
  induction p generalizing scope x r with
  | nil => rfl
  | cons i rest ih =>
    obtain ⟨c, child, found⟩ := Option.bind_eq_some_iff.1 found
    have inner : x.innerScope t scope = Resolution.inside scope x r := by
      cases has : x.id? with
      | none => simp [Node.innerScope, Resolution.inside, has]
      | some id =>
        have here := mapped [] x id rfl has
        simp only [Node.innerScope, Resolution.inside, has, Option.bind_some, here]
        rfl
    have below := ih found fun q z id found has => by
      have there := mapped (i :: q) z id (by rw [Node.at?, child]; exact found) has
      rwa [Resolution.comesTo_cons child] at there
    rw [Resolution.comesTo_cons child, ← below, Node.scopeAt, child, ← inner]
    rfl

theorem ids_program (script : List Statement) (templates : List Expression) :
    (program script templates).ids = (topLevel script templates).flatMap Node.ids := by
  have wrapped : ∀ e : Expression,
      (Node.statement (.expression e)).ids = (Node.expression e).ids := by
    intro e
    rw [Node.ids_eq]
    simp [Node.id?, Node.children, Node.ofStatement]
  rw [Node.ids_eq]
  simp [program, Node.id?, Node.children, topLevel, List.flatMap_map, wrapped]

/-- **The walk and the resolver agree on the scope of every position.** -/
theorem scopeAt_program {script : List Statement} {templates : List Expression}
    (distinct : ((topLevel script templates).flatMap Node.ids).Nodup) {p : List Nat} {y : Node}
    (found : (program script templates).at? p = some y) :
    (program script templates).scopeAt (resolve script templates) rootScope p =
      (program script templates).resolvedScope p := by
  have lt : rootScope < Resolution.start.tree.scopes.length := Nat.one_pos
  have keys : ((resolve script templates).nodes.map Prod.fst).Nodup := by
    obtain ⟨entries, nodes, keys⟩ :=
      (Resolution.adds_node (program script templates) ordered_start lt).nodes
    rw [ids_program] at keys
    rw [resolve_eq_program]
    show ((Resolution.node rootScope (program script templates) .start).tree.nodes.map
      Prod.fst).Nodup
    rw [nodes, List.map_append, keys]
    simpa [Resolution.start, start, List.Nodup, List.pairwise_reverse, eq_comm] using distinct
  refine scopeAt_eq_comesTo found fun q z id found has => ?_
  have settled := (settled_resolve found has).registered id has
  have mapped := scopeOf?_of_mem keys settled
  simpa [Node.resolvedScopeWithin, found, Resolution.inside, has] using mapped

end ScopeTree

end ReactiveMarkup
