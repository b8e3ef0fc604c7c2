import ReactiveMarkup.Proofs.LexicalScope
import ReactiveMarkup.Proofs.ScopeShape
import ReactiveMarkup.Scope.Resolution

/-!
# Scope resolution follows lexical scoping

The resolver is one pass with a growing state. At every node it does something of its own (`arrive`)
and then goes through the children, in the scope of the node if that opens one and in the scope
around it otherwise (`node_eq`). What it adds to the scopes that were there before is exactly what
the node binds by the rules of lexical scoping (`adds_node`): the `let`, `const` and function names
in the scope where the node stands, the `var` names in the function around it, and nothing anywhere
else. A scope is therefore complete when the node that opened it is left, whatever comes later.

From there the scopes around a position can be climbed (`Climbs`): each declares what the frame of
its function or block binds, up to the root.
-/

namespace ReactiveMarkup

open Script (DeclarationKind Expression Target Function Body Statement Declarator Node)

/-- The names that a target refers to itself, outside the object of a member. -/
def Script.Target.ownNames : Target → List String
  | .identifier name => [name]
  | .member _ _ => []
  | .verbatim _ names => names

namespace Resolution

/-- Resolves a node that stands in a scope. -/
def node (scope : ScopeId) : Node → Resolution → Resolution
  | .script body, r => statements scope body r
  | .statement s, r => statement scope s r
  | .declarator kind d, r => declarators scope (.ofDeclaration kind) [d] r
  | .function f, r => function scope f r
  | .expression e, r => expression scope e r

/-- What the resolver does at a node before it goes on with the children. -/
def arrive (scope : ScopeId) : Node → Resolution → Resolution
  | .statement (.function f), r => r.declare scope f.signature.name.toList .function
  | .statement (.block id _), r => r.enter scope false id
  | .statement (.verbatim _ names), r => r.refer scope names
  | .declarator kind d, r => r.declare scope d.pattern.names (.ofDeclaration kind)
  | .function f, r =>
    (r.enter scope true f.id).declare r.nextScope f.signature.paramNames .param
  | .expression (.identifier name), r => r.refer scope [name]
  | .expression (.assignment _ target _), r => r.refer scope target.ownNames
  | .expression (.update _ _ target), r => r.refer scope target.ownNames
  | .expression (.verbatim _ names), r => r.refer scope names
  | _, r => r

/-- The scope in which the children of a node stand. -/
def inside (scope : ScopeId) (x : Node) (r : Resolution) : ScopeId :=
  if x.id?.isSome then r.nextScope else scope

/-- Resolves some nodes that stand in one scope. -/
def all (scope : ScopeId) (xs : List Node) (r : Resolution) : Resolution :=
  xs.foldl (fun r x => node scope x r) r

@[simp] theorem all_nil (scope : ScopeId) (r : Resolution) : all scope [] r = r := rfl

@[simp] theorem all_cons (scope : ScopeId) (x : Node) (xs : List Node) (r : Resolution) :
    all scope (x :: xs) r = all scope xs (node scope x r) := rfl

theorem all_append (scope : ScopeId) (xs ys : List Node) (r : Resolution) :
    all scope (xs ++ ys) r = all scope ys (all scope xs r) := List.foldl_append

@[simp] theorem refer_nil (r : Resolution) (scope : ScopeId) : r.refer scope [] = r := by
  simp [refer]

theorem expressions_eq (scope : ScopeId) (es : List Expression) (r : Resolution) :
    expressions scope es r = all scope (es.map .expression) r := by
  induction es generalizing r with
  | nil => rfl
  | cons e rest ih => exact ih (expression scope e r)

theorem statements_eq (scope : ScopeId) (ss : List Statement) (r : Resolution) :
    statements scope ss r = all scope (ss.map .statement) r := by
  induction ss generalizing r with
  | nil => rfl
  | cons s rest ih => exact ih (statement scope s r)

theorem declarators_eq (scope : ScopeId) (kind : DeclarationKind) (ds : List Declarator)
    (r : Resolution) :
    declarators scope (.ofDeclaration kind) ds r = all scope (ds.map (.declarator kind)) r := by
  induction ds generalizing r with
  | nil => rfl
  | cons d rest ih =>
    obtain ⟨pattern, init⟩ := d
    cases init <;> exact ih _

/-- The resolver takes a node first and then its children in order. -/
theorem node_eq (scope : ScopeId) (x : Node) (r : Resolution) :
    node scope x r = all (inside scope x r) x.children (arrive scope x r) := by
  cases x with
  | script body => exact statements_eq scope body r
  | statement s =>
    cases s with
    | declaration kind items => exact declarators_eq scope kind items r
    | function f =>
      obtain ⟨id, signature, body⟩ := f
      rfl
    | expression e => rfl
    | block id body => exact statements_eq r.nextScope body _
    | conditional test consequent alternate => cases alternate <;> rfl
    | result value => cases value <;> rfl
    | labeled label body => rfl
    | verbatim source names => rfl
  | declarator kind d =>
    obtain ⟨pattern, init⟩ := d
    cases init <;> rfl
  | function f =>
    obtain ⟨id, signature, body⟩ := f
    cases body with
    | block body => exact statements_eq r.nextScope body _
    | expression value => rfl
  | expression e =>
    cases e with
    | assignment operator target right =>
      cases target with
      | member object property =>
        show expression scope right (expression scope object r) =
          expression scope right (expression scope object (r.refer scope []))
        rw [refer_nil]
      | _ => rfl
    | update operator leading target =>
      cases target with
      | member object property =>
        show expression scope object r = expression scope object (r.refer scope [])
        rw [refer_nil]
      | _ => rfl
    | call callee arguments optional => exact expressions_eq scope arguments _
    | sequence items => exact expressions_eq scope items r
    | _ => rfl

/-! ## What resolving a node adds -/

/-- From `r` to `r'`, the scopes that were there before got exactly some lexical names in one scope
and some `var` names in the function around it, and scopes were opened for some nodes. -/
structure Adds (r r' : Resolution) (scope : ScopeId) (lexical vars : List String)
    (ids : List Nat) : Prop where
  grown : r.tree.shape <+: r'.tree.shape
  ordered : r'.tree.Ordered
  declares : ∀ {k : Nat} {name : String}, k < r.tree.scopes.length →
    (r'.tree.declaresAt k name = true ↔ r.tree.declaresAt k name = true ∨
      k = scope ∧ name ∈ lexical ∨ k = r.tree.functionScope scope ∧ name ∈ vars)
  nodes : ∃ entries, r'.tree.nodes = entries ++ r.tree.nodes ∧
    entries.map Prod.fst = ids.reverse

namespace Adds

variable {r r' r'' : Resolution} {scope : ScopeId} {lexical vars lexical' vars' : List String}
  {ids ids' : List Nat}

theorem length_le (h : Adds r r' scope lexical vars ids) :
    r.tree.scopes.length ≤ r'.tree.scopes.length := by
  simpa using h.grown.length_le

/-- Nothing is added when the tree stays as it is. -/
theorem of_tree_eq (ordered : r.tree.Ordered) (same : r'.tree = r.tree) :
    Adds r r' scope [] [] [] where
  grown := same ▸ List.prefix_refl _
  ordered := same ▸ ordered
  declares := by simp [same]
  nodes := ⟨[], by simp [same]⟩

theorem trans (ordered : r.tree.Ordered) (lt : scope < r.tree.scopes.length)
    (first : Adds r r' scope lexical vars ids) (second : Adds r' r'' scope lexical' vars' ids') :
    Adds r r'' scope (lexical ++ lexical') (vars ++ vars') (ids ++ ids') where
  grown := first.grown.trans second.grown
  ordered := second.ordered
  declares := by
    intro k name old
    rw [second.declares (Nat.lt_of_lt_of_le old first.length_le), first.declares old,
      ScopeTree.functionScope_of_grown ordered first.grown lt, List.mem_append, List.mem_append]
    grind
  nodes := by
    obtain ⟨entries, eq, keys⟩ := first.nodes
    obtain ⟨entries', eq', keys'⟩ := second.nodes
    refine ⟨entries' ++ entries, ?_, ?_⟩
    · rw [eq', eq, List.append_assoc]
    · rw [List.map_append, keys, keys', List.reverse_append]

end Adds

/-- Declaring names adds them to one scope. -/
theorem adds_declare {r : Resolution} (ordered : r.tree.Ordered) (scope : ScopeId)
    (names : List String) (kind : BindingKind) :
    Adds r (r.declare scope names kind) scope (if kind = .var then [] else names)
      (if kind = .var then names else []) [] where
  grown := by
    have same : (r.tree.declareAll scope names kind).shape = r.tree.shape :=
      ScopeTree.shape_declareAll _ _ _ _
    exact ⟨[], by rw [List.append_nil]; exact same.symm⟩
  ordered := ordered.of_shape_eq (ScopeTree.shape_declareAll _ _ _ _)
  declares := by
    intro k name old
    show (r.tree.declareAll scope names kind).declaresAt k name = true ↔ _
    rw [ScopeTree.declaresAt_declareAll]
    cases kind <;> simp [ScopeTree.receiver, old]
  nodes := ⟨[], ScopeTree.nodes_declareAll _ _ _ _, rfl⟩

/-- At a node without a scope of its own, the resolver adds what the node itself declares. -/
theorem adds_arrive {r : Resolution} (ordered : r.tree.Ordered) (scope : ScopeId) {x : Node}
    (plain : x.id? = none) :
    Adds r (arrive scope x r) scope x.ownLexical x.ownVar [] := by
  cases x with
  | script body => exact .of_tree_eq ordered rfl
  | statement s =>
    cases s with
    | function f => exact adds_declare ordered scope f.signature.name.toList .function
    | block id body => simp [Node.id?] at plain
    | _ => exact .of_tree_eq ordered rfl
  | declarator kind d =>
    have := adds_declare ordered scope d.pattern.names (.ofDeclaration kind)
    cases kind <;> exact this
  | function f => simp [Node.id?] at plain
  | expression e => cases e <;> exact .of_tree_eq ordered rfl

/-- Resolving some nodes one after another adds what each of them adds. -/
theorem adds_all {scope : ScopeId} {xs : List Node}
    (each : ∀ x ∈ xs, ∀ r : Resolution, r.tree.Ordered → scope < r.tree.scopes.length →
      Adds r (node scope x r) scope x.lexicalNames x.varNames x.ids)
    {r : Resolution} (ordered : r.tree.Ordered) (lt : scope < r.tree.scopes.length) :
    Adds r (all scope xs r) scope (xs.flatMap Node.lexicalNames) (xs.flatMap Node.varNames)
      (xs.flatMap Node.ids) := by
  induction xs generalizing r with
  | nil => exact .of_tree_eq ordered rfl
  | cons x rest ih =>
    have first := each x List.mem_cons_self r ordered lt
    have others := ih (fun y mem => each y (List.mem_cons_of_mem x mem)) first.ordered
      (Nat.lt_of_lt_of_le lt first.length_le)
    simpa only [List.flatMap_cons, all_cons] using first.trans ordered lt others

/-! ## Scopes that are opened -/

/-- Whether the scope of a node receives `var` names. -/
def opensFunction : Node → Bool
  | .function _ => true
  | _ => false

/-- The names that the parameters of a node bind. -/
def params : Node → List String
  | .function f => f.signature.paramNames
  | _ => []

/-- The state in which the resolver goes on with the children of a node that has a scope. -/
structure Opened (r r₀ : Resolution) (scope : ScopeId) (x : Node) (id : Nat) : Prop where
  shape : r₀.tree.shape = r.tree.shape ++ [(some scope, opensFunction x)]
  ordered : r₀.tree.Ordered
  declares : ∀ {k : Nat} {name : String}, r₀.tree.declaresAt k name = true ↔
    r.tree.declaresAt k name = true ∨ k = r.nextScope ∧ name ∈ params x
  nodes : r₀.tree.nodes = (id, r.nextScope) :: r.tree.nodes

theorem opened_arrive {r : Resolution} {scope : ScopeId} {x : Node} {id : Nat}
    (has : x.id? = some id) (ordered : r.tree.Ordered) (lt : scope < r.tree.scopes.length) :
    Opened r (arrive scope x r) scope x id := by
  cases x with
  | function f =>
    obtain rfl : f.id = id := Option.some.inj has
    have same := ScopeTree.shape_declareAll (r.tree.openScope scope true f.id) r.nextScope
      f.signature.paramNames .param
    refine ⟨?_, ?_, ?_, ?_⟩
    · exact same.trans (ScopeTree.shape_openScope _ _ _ _)
    · exact (ordered.openScope true f.id lt).of_shape_eq same
    · intro k name
      show ((r.tree.openScope scope true f.id).declareAll r.nextScope f.signature.paramNames
        .param).declaresAt k name = true ↔ _
      rw [ScopeTree.declaresAt_declareAll, ScopeTree.declaresAt_openScope]
      simp [ScopeTree.receiver, ScopeTree.openScope, params, nextScope]
      grind
    · exact ScopeTree.nodes_declareAll _ _ _ _
  | statement s =>
    cases s with
    | block id' body =>
      obtain rfl : id' = id := Option.some.inj has
      refine ⟨ScopeTree.shape_openScope _ _ _ _, ordered.openScope false id' lt, ?_, rfl⟩
      intro k name
      show (r.tree.openScope scope false id').declaresAt k name = true ↔ _
      rw [ScopeTree.declaresAt_openScope]
      simp [params]
    | _ => simp [Node.id?] at has
  | _ => simp [Node.id?] at has

theorem not_declaresAt_nextScope (r : Resolution) (name : String) :
    ¬ r.tree.declaresAt r.nextScope name = true := by
  simp [ScopeTree.declaresAt, nextScope]

/-- A function or block keeps the lexical names inside it to itself. -/
theorem lexicalNames_of_scope {x : Node} {id : Nat} (has : x.id? = some id) :
    x.lexicalNames = [] := by
  cases x with
  | function f => rfl
  | statement s =>
    cases s with
    | block id' body => rfl
    | _ => simp [Node.id?] at has
  | _ => simp [Node.id?] at has

theorem varNames_of_scope {x : Node} {id : Nat} (has : x.id? = some id) :
    x.varNames = if opensFunction x then [] else x.children.flatMap Node.varNames := by
  cases x with
  | function f => rfl
  | statement s =>
    rw [Node.varNames_eq (by simp)]
    cases s with
    | block id' body => rfl
    | _ => simp [Node.id?] at has
  | _ => simp [Node.id?] at has

theorem frame_of_scope {x : Node} {id : Nat} (has : x.id? = some id) :
    x.frame? = some (params x ++ x.children.flatMap Node.lexicalNames ++
      if opensFunction x then x.children.flatMap Node.varNames else []) := by
  cases x with
  | function f => rfl
  | statement s =>
    cases s with
    | block id' body =>
      simp [Node.frame?, params, opensFunction, Node.children, Node.ofStatement, List.flatMap_map,
        Node.lexicalNames]
    | _ => simp [Node.id?] at has
  | _ => simp [Node.id?] at has

/-- The state in which the resolver leaves a node that has a scope: the scope stands where the node
stands and declares the frame of the node, and the scopes before it got the `var` names that the
node passes on. -/
structure Completed (r r' : Resolution) (scope : ScopeId) (x : Node) (id : Nat) : Prop where
  adds : Adds r r' scope [] x.varNames x.ids
  nested : r'.tree.shape[r.nextScope]? = some (some scope, opensFunction x)
  declares : ∀ frame, x.frame? = some frame → ∀ name,
    (r'.tree.declaresAt r.nextScope name = true ↔ name ∈ frame)
  registered : (id, r.nextScope) ∈ r'.tree.nodes

theorem completed_node {r : Resolution} {scope : ScopeId} {x : Node} {id : Nat}
    (has : x.id? = some id) (ordered : r.tree.Ordered) (lt : scope < r.tree.scopes.length)
    (each : ∀ y ∈ x.children, ∀ r : Resolution, r.tree.Ordered → ∀ scope : ScopeId,
      scope < r.tree.scopes.length →
        Adds r (node scope y r) scope y.lexicalNames y.varNames y.ids) :
    Completed r (node scope x r) scope x id := by
  have opened := opened_arrive has ordered lt
  have length : (arrive scope x r).tree.scopes.length = r.nextScope + 1 := by
    rw [← ScopeTree.length_shape, opened.shape]
    simp [nextScope]
  have grown : r.tree.shape <+: (arrive scope x r).tree.shape :=
    opened.shape ▸ List.prefix_append _ _
  have eq : node scope x r = all r.nextScope x.children (arrive scope x r) := by
    rw [node_eq, inside, has]
    rfl
  have below : r.nextScope < (arrive scope x r).tree.scopes.length :=
    length ▸ Nat.lt_succ_self _
  have adds := adds_all (fun y mem r' ordered' => each y mem r' ordered' r.nextScope)
    opened.ordered below
  have nested : (arrive scope x r).tree.shape[r.nextScope]? =
      some (some scope, opensFunction x) := by
    rw [opened.shape]
    simp [nextScope]
  -- the function around the new scope: itself, or the one around the scope before
  have around : (arrive scope x r).tree.functionScope r.nextScope =
      if opensFunction x then r.nextScope else r.tree.functionScope scope := by
    cases function : opensFunction x with
    | true => exact ScopeTree.functionScope_of_function (function ▸ nested)
    | false =>
      rw [ScopeTree.functionScope_of_block opened.ordered (function ▸ nested),
        ScopeTree.functionScope_of_grown ordered grown lt]
      rfl
  have notAround : r.tree.functionScope scope ≠ r.nextScope :=
    Nat.ne_of_lt (Nat.lt_of_le_of_lt (ScopeTree.functionScope_le ordered scope) lt)
  obtain ⟨entries, nodes, keys⟩ := adds.nodes
  rw [eq]
  refine ⟨⟨grown.trans adds.grown, adds.ordered, ?_, ?_⟩, ?_, ?_, ?_⟩
  · intro k name old
    have different : k ≠ r.nextScope := Nat.ne_of_lt old
    rw [adds.declares (Nat.lt_trans old below), opened.declares, around, varNames_of_scope has]
    cases opensFunction x <;> simp [different]
  · refine ⟨entries ++ [(id, r.nextScope)], ?_, ?_⟩
    · rw [nodes, opened.nodes]
      simp
    · rw [List.map_append, keys, Node.ids_eq x, has]
      simp
  · exact (ScopeTree.shape_getElem?_of_grown adds.grown below).trans nested
  · intro frame isFrame name
    obtain rfl := Option.some.inj ((frame_of_scope has).symm.trans isFrame)
    rw [adds.declares below, opened.declares, around]
    have fresh := not_declaresAt_nextScope r name
    cases opensFunction x <;> simp [fresh, notAround.symm]
  · rw [nodes, opened.nodes]
    simp

/-- **Resolving a node adds exactly what it binds**, and opens one scope for each function and block
in it. -/
theorem adds_node (x : Node) {r : Resolution} (ordered : r.tree.Ordered) {scope : ScopeId}
    (lt : scope < r.tree.scopes.length) :
    Adds r (node scope x r) scope x.lexicalNames x.varNames x.ids := by
  induction x using Node.induction generalizing r scope with
  | step x ih =>
    cases has : x.id? with
    | none =>
      have first := adds_arrive ordered scope has
      have others := adds_all (fun y mem r' ordered' => ih y mem ordered') first.ordered
        (Nat.lt_of_lt_of_le lt first.length_le)
      have both := first.trans ordered lt others
      rw [node_eq, inside, has, Node.lexicalNames_eq has, Node.varNames_eq, Node.ids_eq, has]
      · exact both
      · rintro f rfl
        simp [Node.id?] at has
    | some id =>
      rw [lexicalNames_of_scope has]
      exact (completed_node has ordered lt fun y mem r' ordered' scope' lt' =>
        ih y mem ordered' lt').adds

theorem adds_nodes (xs : List Node) {r : Resolution} (ordered : r.tree.Ordered) {scope : ScopeId}
    (lt : scope < r.tree.scopes.length) :
    Adds r (all scope xs r) scope (xs.flatMap Node.lexicalNames) (xs.flatMap Node.varNames)
      (xs.flatMap Node.ids) :=
  adds_all (fun x _ _ ordered => adds_node x ordered) ordered lt

end Resolution

/-! ## The scopes around a position -/

/-- Outward from a scope come scopes numbered `first` or later that declare the given frames, and
then scope `stop`. -/
inductive Climbs (t : ScopeTree) (first stop : ScopeId) : ScopeId → List (List String) → Prop
  | here : Climbs t first stop stop []
  | up {k parent : ScopeId} {isFunction : Bool} {frame : List String}
      {frames : List (List String)} (later : first ≤ k)
      (nested : t.shape[k]? = some (some parent, isFunction))
      (declares : ∀ name, t.declaresAt k name = true ↔ name ∈ frame)
      (rest : Climbs t first stop parent frames) : Climbs t first stop k (frame :: frames)

namespace Climbs

variable {t t' : ScopeTree} {first stop k : ScopeId} {frames : List (List String)}

/-- A climb sees neither scopes that are opened later nor what earlier scopes declare. -/
theorem kept (h : Climbs t first stop k frames) (grown : t.shape <+: t'.shape)
    (same : ∀ k : ScopeId, first ≤ k → k < t.scopes.length → ∀ name,
      (t'.declaresAt k name = true ↔ t.declaresAt k name = true)) :
    Climbs t' first stop k frames := by
  induction h with
  | here => exact .here
  | @up k _ _ _ _ later nested declares _ ih =>
    have lt : k < t.scopes.length := by
      simpa using (List.getElem?_eq_some_iff.1 nested).1
    exact .up later ((ScopeTree.shape_getElem?_of_grown grown lt).trans nested)
      (fun name => (same k later lt name).trans (declares name)) ih

theorem trans {middle : ScopeId} {outer : List (List String)} (h : Climbs t first middle k frames)
    (h' : Climbs t first stop middle outer) : Climbs t first stop k (frames ++ outer) := by
  induction h with
  | here => exact h'
  | up later nested declares _ ih => exact .up later nested declares ih

theorem lt_length (h : Climbs t first stop k frames) (lt : stop < t.scopes.length) :
    k < t.scopes.length := by
  cases h with
  | here => exact lt
  | up _ nested _ _ => simpa using (List.getElem?_eq_some_iff.1 nested).1

theorem weaken {first' : ScopeId} (h : Climbs t first stop k frames) (le : first' ≤ first) :
    Climbs t first' stop k frames := by
  induction h with
  | here => exact .here
  | up later nested declares _ ih => exact .up (Nat.le_trans le later) nested declares ih

/-- Resolving more in a scope before all those on a climb leaves the climb as it is. -/
theorem after {r r' : Resolution} {scope : ScopeId} {lexical vars : List String} {ids : List Nat}
    (h : Climbs r.tree first stop k frames) (ordered : r.tree.Ordered)
    (adds : Resolution.Adds r r' scope lexical vars ids) (before : scope < first) :
    Climbs r'.tree first stop k frames := by
  refine h.kept adds.grown fun k later lt name => ?_
  have different : k ≠ scope := (Nat.ne_of_lt (Nat.lt_of_lt_of_le before later)).symm
  have different' : k ≠ r.tree.functionScope scope :=
    (Nat.ne_of_lt (Nat.lt_of_le_of_lt (ScopeTree.functionScope_le ordered scope)
      (Nat.lt_of_lt_of_le before later))).symm
  rw [adds.declares lt]
  simp [different, different']

/-- The free names are noted last and change no scope. -/
theorem finish {r : Resolution} (h : Climbs r.tree first stop k frames) :
    Climbs r.finish first stop k frames :=
  h.kept (List.prefix_refl _) fun _ _ _ _ => Iff.rfl

end Climbs

namespace Script.Node

/-- The scope in which the children of a node stand, found through the node map of a tree. -/
def innerScope (t : ScopeTree) (scope : ScopeId) (x : Node) : ScopeId :=
  (x.id?.bind t.scopeOf?).getD scope

/-- The scope of a position, found through the node map of a tree. -/
def scopeAt (t : ScopeTree) (scope : ScopeId) : Node → List Nat → ScopeId
  | _, [] => scope
  | x, i :: rest => (x.children[i]?.map (·.scopeAt t (x.innerScope t scope) rest)).getD scope

end Script.Node

namespace Resolution

theorem frame?_eq_none {x : Node} (plain : x.id? = none) : x.frame? = none := by
  cases x with
  | function f => simp [Node.id?] at plain
  | statement s =>
    cases s with
    | block id body => simp [Node.id?] at plain
    | _ => rfl
  | _ => rfl

theorem inside_lt_arrive {r : Resolution} (ordered : r.tree.Ordered) {scope : ScopeId}
    (lt : scope < r.tree.scopes.length) (x : Node) :
    (arrive scope x r).tree.Ordered ∧
      inside scope x r < (arrive scope x r).tree.scopes.length ∧
      r.tree.scopes.length ≤ (arrive scope x r).tree.scopes.length := by
  unfold inside
  cases has : x.id? with
  | none =>
    have adds := adds_arrive ordered scope has
    exact ⟨adds.ordered, Nat.lt_of_lt_of_le lt adds.length_le, adds.length_le⟩
  | some id =>
    have opened := opened_arrive has ordered lt
    have length : (arrive scope x r).tree.scopes.length = r.nextScope + 1 := by
      rw [← ScopeTree.length_shape, opened.shape]
      simp [nextScope]
    rw [length]
    exact ⟨opened.ordered, Nat.lt_succ_self _, Nat.le_succ _⟩

/-- **The scopes around a position declare the frames around it.** The node map may be that of any
tree in which the scopes of this node are registered. -/
theorem climbs_at {t : ScopeTree} {position : List Nat} {x y : Node} {r : Resolution}
    {scope : ScopeId} (found : x.at? position = some y) (ordered : r.tree.Ordered)
    (lt : scope < r.tree.scopes.length)
    (registered : ∀ entry ∈ (node scope x r).tree.nodes, t.scopeOf? entry.1 = some entry.2) :
    Climbs (node scope x r).tree r.nextScope scope (x.scopeAt t scope position)
      (x.frames position) := by
  induction position generalizing x r scope with
  | nil => exact .here
  | cons i rest ih =>
    obtain ⟨c, child, found⟩ := Option.bind_eq_some_iff.1 found
    obtain ⟨ordered₀, lt₀, longer⟩ := inside_lt_arrive ordered lt x
    -- the children before `c`, then `c`, then the children behind it
    have split : x.children = x.children.take i ++ c :: x.children.drop (i + 1) := by
      obtain ⟨bound, eq⟩ := List.getElem?_eq_some_iff.1 child
      rw [← eq, List.getElem_cons_drop, List.take_append_drop]
    have eq := node_eq scope x r
    rw [split, all_append, all_cons] at eq
    have before := adds_nodes (x.children.take i) ordered₀ lt₀
    have lt₁ := Nat.lt_of_lt_of_le lt₀ before.length_le
    have here := adds_node c before.ordered lt₁
    have behind := adds_nodes (x.children.drop (i + 1)) here.ordered
      (Nat.lt_of_lt_of_le lt₁ here.length_le)
    rw [← eq] at behind
    have inner : Climbs (node scope x r).tree r.nextScope (inside scope x r)
        (c.scopeAt t (inside scope x r) rest) (c.frames rest) := by
      have climb := ih found before.ordered lt₁ fun entry mem => registered entry (by
        obtain ⟨entries, nodes, _⟩ := behind.nodes
        rw [nodes]
        exact List.mem_append_right entries mem)
      exact (climb.after here.ordered behind lt₁).weaken
        (Nat.le_trans longer before.length_le)
    simp only [Node.scopeAt, Node.frames, child, Option.map_some, Option.getD_some]
    cases has : x.id? with
    | none =>
      have stays : inside scope x r = scope := by simp [inside, has]
      rw [stays] at inner
      simpa [Node.innerScope, has, frame?_eq_none has] using inner
    | some id =>
      have enters : inside scope x r = r.nextScope := by simp [inside, has]
      have completed := completed_node has ordered lt fun y _ r' ordered' scope' lt' =>
        adds_node y ordered' lt'
      have entered : x.innerScope t scope = r.nextScope := by
        simp [Node.innerScope, has, registered _ completed.registered]
      have isFrame := frame_of_scope has
      rw [enters] at inner
      rw [entered, isFrame]
      exact inner.trans (.up (Nat.le_refl _) completed.nested (completed.declares _ isFrame) .here)

end Resolution

/-! ## The owner of a name -/

namespace ScopeTree

theorem ownerWithin_succ (t : ScopeTree) (name : String) (fuel : Nat) (id : ScopeId) :
    t.ownerWithin name (fuel + 1) id =
      if t.declaresAt id name then some id
      else
        match t.shape[id]? with
        | some (some parent, _) => t.ownerWithin name fuel parent
        | _ => none := by
  rw [ownerWithin, declaresAt, shape_getElem?]
  cases found : t.scopes[id]? with
  | none => rfl
  | some scope =>
    obtain ⟨parent, isFunction, declarations⟩ := scope
    cases parent <;> rfl

theorem isRootOrFree_iff (t : ScopeTree) (id : ScopeId) (name : String) :
    t.isRootOrFree id name = true ↔
      t.owner? id name = none ∨ t.owner? id name = some rootScope := by
  unfold isRootOrFree
  cases t.owner? id name <;> simp

/-- Whether a name belongs to the root or to nobody, when the scopes on the way to the root are
known. -/
theorem isRootOrFree_of_climbs {t : ScopeTree} {first k : ScopeId} {frames : List (List String)}
    (ordered : t.Ordered) (climbs : Climbs t first rootScope k frames) (pos : 0 < first)
    (lt : k < t.scopes.length) (name : String) :
    t.isRootOrFree k name = true ↔ ∀ frame ∈ frames, name ∉ frame := by
  -- the fuel exceeds the scope, and a parent is a smaller scope
  have within : ∀ fuel : Nat, k < fuel →
      ((t.ownerWithin name fuel k = none ∨ t.ownerWithin name fuel k = some rootScope) ↔
        ∀ frame ∈ frames, name ∉ frame) := by
    induction climbs with
    | here =>
      intro fuel enough
      obtain ⟨fuel, rfl⟩ := Nat.exists_eq_succ_of_ne_zero (Nat.ne_of_gt enough)
      rw [ownerWithin_succ, show t.shape[rootScope]? = _ from ordered.root]
      cases t.declaresAt rootScope name <;> simp
    | @up k parent _ frame _ later nested declares _ ih =>
      intro fuel enough
      obtain ⟨fuel, rfl⟩ :=
        Nat.exists_eq_succ_of_ne_zero (Nat.ne_of_gt (Nat.zero_lt_of_lt enough))
      have below := ordered.parent_lt nested
      rw [ownerWithin_succ, nested]
      by_cases here : name ∈ frame
      · have notRoot : k ≠ rootScope := Nat.ne_of_gt (Nat.lt_of_lt_of_le pos later)
        simp [(declares name).2 here, here, notRoot]
      · have absent : t.declaresAt k name = false := by
          simpa using mt (declares name).1 here
        simpa [absent, here] using ih (Nat.lt_trans below lt) fuel
          (Nat.lt_of_lt_of_le below (Nat.le_of_lt_succ enough))
  exact (isRootOrFree_iff t k name).trans (within t.scopes.length lt)

theorem Ordered.finish {r : Resolution} (h : r.tree.Ordered) : r.finish.Ordered :=
  h.of_shape_eq rfl

theorem scopeOf?_of_mem {t : ScopeTree} (distinct : (t.nodes.map Prod.fst).Nodup)
    {entry : Nat × ScopeId} (mem : entry ∈ t.nodes) : t.scopeOf? entry.1 = some entry.2 := by
  unfold scopeOf?
  generalize t.nodes = nodes at distinct mem
  induction nodes with
  | nil => simp at mem
  | cons head rest ih =>
    rw [List.map_cons, List.nodup_cons] at distinct
    rcases List.mem_cons.1 mem with rfl | mem
    · simp
    · have different : head.1 ≠ entry.1 := fun same =>
        distinct.1 (same ▸ List.mem_map_of_mem mem)
      simpa [List.find?_cons, different] using ih distinct.2 mem

end ScopeTree

/-- The nodes that stand at the top level: the statements of a script, then template
expressions. -/
def topLevel (script : List Statement) (templates : List Expression) : List Node :=
  script.map .statement ++ templates.map .expression

namespace ScopeTree

theorem resolve_eq (script : List Statement) (templates : List Expression) :
    resolve script templates =
      (Resolution.all rootScope (topLevel script templates) .start).finish := by
  rw [resolve, Resolution.statements_eq, Resolution.expressions_eq, topLevel,
    Resolution.all_append]

/-- **The resolver agrees with lexical scoping**: seen from the scope of a position, a name belongs
to the root or is free exactly if no function or block around the position binds it. -/
theorem isRootOrFree_resolve {script : List Statement} {templates : List Expression}
    (distinct : ((topLevel script templates).flatMap Node.ids).Nodup) {x y : Node}
    (mem : x ∈ topLevel script templates) {position : List Nat}
    (found : x.at? position = some y) (name : String) :
    (resolve script templates).isRootOrFree
        (x.scopeAt (resolve script templates) rootScope position) name = true ↔
      x.RootOrFree position name := by
  have ordered : Resolution.start.tree.Ordered := ordered_start
  have lt : rootScope < Resolution.start.tree.scopes.length := Nat.one_pos
  have whole := Resolution.adds_nodes (topLevel script templates) ordered lt
  rw [resolve_eq]
  -- every node of the script is registered once, so its entry is the one that is found
  have registered : ∀ entry ∈ (Resolution.all rootScope (topLevel script templates)
      .start).tree.nodes,
      (Resolution.all rootScope (topLevel script templates) .start).finish.scopeOf? entry.1 =
        some entry.2 := by
    obtain ⟨entries, nodes, keys⟩ := whole.nodes
    refine fun entry mem => scopeOf?_of_mem ?_ mem
    show ((Resolution.all rootScope (topLevel script templates) .start).tree.nodes.map
      Prod.fst).Nodup
    rw [nodes, List.map_append, keys]
    simpa [Resolution.start, start, List.Nodup, List.pairwise_reverse, eq_comm] using distinct
  obtain ⟨before, behind, split⟩ := List.append_of_mem mem
  rw [split, Resolution.all_append, Resolution.all_cons] at whole registered ⊢
  have first := Resolution.adds_nodes before ordered lt
  have lt₁ := Nat.lt_of_lt_of_le lt first.length_le
  have here := Resolution.adds_node x first.ordered lt₁
  have lt₂ := Nat.lt_of_lt_of_le lt₁ here.length_le
  have others := Resolution.adds_nodes behind here.ordered lt₂
  have climb := Resolution.climbs_at found first.ordered lt₁ fun entry mem =>
    registered entry (by
      obtain ⟨entries, nodes, _⟩ := others.nodes
      rw [nodes]
      exact List.mem_append_right entries mem)
  have climb := (climb.after here.ordered others lt₁).finish
  exact isRootOrFree_of_climbs others.ordered.finish climb lt₁
    (climb.lt_length (Nat.lt_of_lt_of_le lt₂ others.length_le)) name

end ScopeTree

end ReactiveMarkup
