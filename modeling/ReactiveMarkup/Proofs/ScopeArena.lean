import Mathlib.Data.Set.Function
import ReactiveMarkup.Proofs.ResolutionStage
import ReactiveMarkup.Proofs.ScopedWalk

/-!
# The list of scopes

What a script leaves in the list of scopes, and what a reader of the list may rely on.

The searches for the owner of a name and for the function around a scope go outward from scope to
scope with nothing that bounds them (`ScopeTree.Search`). They end because every scope comes after
the one around it, and they find a scope at every number because no number leads out of the list;
both hold at every stage of the pass (`ScopeTree.searchesEnd`).

At the end the list holds the root and, in source order, one scope for each function and block
(`Resolution.opens_node`). When their ids are distinct, the node map numbers them one to one, and a
scope hangs below the scope of the innermost function or block around its node
(`Script.Node.resolvedScope_of_plain`).
-/

namespace ReactiveMarkup

open Script (Expression Statement Node)
open Script.Node (Inside)

/-! ## Searching outward -/

namespace ScopeTree

variable {t : ScopeTree}

/-- The search outward from a scope for one at which it stops. It comes to a scope at which it stops
(`true`), or to one with nothing around it (`false`). There is no rule for a number without a
scope. -/
inductive Search (t : ScopeTree) (stops : Scope → Bool) : ScopeId → ScopeId → Bool → Prop
  | found {k : ScopeId} {scope : Scope} (here : t.scopes[k]? = some scope)
      (stop : stops scope = true) : Search t stops k k true
  | missed {k : ScopeId} {scope : Scope} (here : t.scopes[k]? = some scope)
      (on : stops scope = false) (outermost : scope.parent = none) : Search t stops k k false
  | outward {k parent last : ScopeId} {scope : Scope} {hit : Bool}
      (here : t.scopes[k]? = some scope) (on : stops scope = false)
      (around : scope.parent = some parent) (rest : Search t stops parent last hit) :
    Search t stops k last hit

/-- In a list of scopes that is in order, every search comes to an end. -/
theorem Ordered.exists_search (ordered : t.Ordered) (stops : Scope → Bool) {k : ScopeId}
    (lt : k < t.scopes.length) : ∃ last hit, Search t stops k last hit := by
  induction k using Nat.strong_induction_on with
  | _ k ih =>
    have here := List.getElem?_eq_getElem lt
    cases stop : stops t.scopes[k] with
    | true => exact ⟨k, true, .found here stop⟩
    | false =>
      cases around : t.scopes[k].parent with
      | none => exact ⟨k, false, .missed here stop around⟩
      | some parent =>
        have nested : t.shape[k]? = some (some parent, t.scopes[k].isFunction) := by
          rw [shape_getElem?, here, Option.map_some, around]
        have below := ordered.parent_lt nested
        obtain ⟨last, hit, rest⟩ := ih parent below (Nat.lt_trans below lt)
        exact ⟨last, hit, .outward here stop around rest⟩

theorem lt_length_of_getElem? {k : ScopeId} {scope : Scope} (here : t.scopes[k]? = some scope) :
    k < t.scopes.length := (List.getElem?_eq_some_iff.1 here).1

/-- The owner of a name is where the search for a scope that declares it stops. -/
theorem owner?_of_search (ordered : t.Ordered) {name : String} {k last : ScopeId} {hit : Bool}
    (search : Search t (·.declares name) k last hit) :
    t.owner? k name = if hit then some last else none := by
  induction search with
  | found here stop =>
    rw [owner?_eq ordered name (lt_length_of_getElem? here)]
    simp [declaresAt, here, stop]
  | missed here on outermost =>
    rw [owner?_eq ordered name (lt_length_of_getElem? here)]
    simp [declaresAt, shape_getElem?, here, on, outermost]
  | outward here on around rest ih =>
    rw [owner?_eq ordered name (lt_length_of_getElem? here), ← ih]
    simp [declaresAt, shape_getElem?, here, on, around]

/-- The function around a scope is where the search for a function scope ends. -/
theorem functionScope_of_search (ordered : t.Ordered) {k last : ScopeId} {hit : Bool}
    (search : Search t Scope.isFunction k last hit) : t.functionScope k = last := by
  induction search with
  | @found k scope here stop =>
    have nested : t.shape[k]? = some (scope.parent, true) := by simp [shape_getElem?, here, stop]
    exact functionScope_of_function nested
  | @missed k scope here on outermost =>
    obtain ⟨fuel, eq⟩ := Nat.exists_eq_succ_of_ne_zero
      (Nat.ne_of_gt (Nat.zero_lt_of_lt (lt_length_of_getElem? here)))
    rw [functionScope, eq, functionScopeWithin_succ, shape_getElem?, here]
    simp [on, outermost]
  | outward here on around rest ih =>
    rw [← ih]
    exact functionScope_of_block ordered (by simp [shape_getElem?, here, on, around])

/-- Both searches outward from a scope end, and their ends are what the tree answers. -/
structure SearchesEnd (t : ScopeTree) (k : ScopeId) : Prop where
  owner : ∀ name, ∃ last hit, Search t (·.declares name) k last hit ∧
    t.owner? k name = if hit then some last else none
  function : ∃ last hit, Search t Scope.isFunction k last hit ∧ t.functionScope k = last

theorem searchesEnd (ordered : t.Ordered) {k : ScopeId} (lt : k < t.scopes.length) :
    t.SearchesEnd k where
  owner name := by
    obtain ⟨last, hit, search⟩ := ordered.exists_search (·.declares name) lt
    exact ⟨last, hit, search, owner?_of_search ordered search⟩
  function := by
    obtain ⟨last, hit, search⟩ := ordered.exists_search Scope.isFunction lt
    exact ⟨last, hit, search, functionScope_of_search ordered search⟩

end ScopeTree

/-! ## One scope for each function and block -/

namespace Resolution

/-- From `r` to `r'`, scopes were opened and registered for some nodes, one after the other. -/
structure Opens (r r' : Resolution) (ids : List Nat) : Prop where
  length : r'.nextScope = r.nextScope + ids.length
  nodes : r'.tree.nodes = (ids.zipIdx r.nextScope).reverse ++ r.tree.nodes

namespace Opens

variable {r r' r'' : Resolution} {ids ids' : List Nat}

theorem of_tree_eq (same : r'.tree = r.tree) : Opens r r' [] where
  length := by simp [nextScope, same]
  nodes := by simp [same]

theorem trans (first : Opens r r' ids) (second : Opens r' r'' ids') :
    Opens r r'' (ids ++ ids') where
  length := by rw [second.length, first.length, List.length_append, Nat.add_assoc]
  nodes := by
    rw [second.nodes, first.nodes, first.length, List.zipIdx_append, List.reverse_append,
      List.append_assoc]

/-- Declarations open nothing. -/
theorem declare (opens : Opens r r' ids) (scope : ScopeId) (names : List String)
    (kind : BindingKind) : Opens r (r'.declare scope names kind) ids where
  length := by
    have same : (r'.tree.declareAll scope names kind).shape = r'.tree.shape :=
      ScopeTree.shape_declareAll _ _ _ _
    rw [← opens.length, nextScope, nextScope, ← ScopeTree.length_shape, ← ScopeTree.length_shape,
      ← same]
    rfl
  nodes := (ScopeTree.nodes_declareAll _ _ _ _).trans opens.nodes

theorem enter (r : Resolution) (scope : ScopeId) (isFunction : Bool) (node : Nat) :
    Opens r (r.enter scope isFunction node) [node] where
  length := by simp [nextScope, Resolution.enter, ScopeTree.openScope]
  nodes := by simp [nextScope, Resolution.enter, ScopeTree.openScope]

end Opens

theorem opens_arrive (scope : ScopeId) (x : Node) (r : Resolution) :
    Opens r (arrive scope x r) x.id?.toList := by
  have nothing : Opens r r [] := .of_tree_eq rfl
  cases x with
  | script body => exact nothing
  | statement s =>
    cases s with
    | function f => exact nothing.declare scope f.signature.name.toList .function
    | block id body => exact .enter r scope false id
    | _ => exact .of_tree_eq rfl
  | declarator kind d => exact nothing.declare scope d.pattern.names _
  | function f => exact (Opens.enter r scope true f.id).declare _ f.signature.paramNames .param
  | expression e => cases e <;> exact .of_tree_eq rfl

theorem opens_all {scope : ScopeId} {xs : List Node}
    (each : ∀ x ∈ xs, ∀ r : Resolution, Opens r (node scope x r) x.ids) (r : Resolution) :
    Opens r (all scope xs r) (xs.flatMap Node.ids) := by
  induction xs generalizing r with
  | nil => exact .of_tree_eq rfl
  | cons x rest ih =>
    have first := each x List.mem_cons_self r
    have others := ih (fun y mem => each y (List.mem_cons_of_mem x mem)) (node scope x r)
    simpa only [List.flatMap_cons, all_cons] using first.trans others

/-- **Resolving a node opens one scope for each function and block in it**, in source order. -/
theorem opens_node (scope : ScopeId) (x : Node) (r : Resolution) :
    Opens r (node scope x r) x.ids := by
  induction x using Node.induction generalizing scope r with
  | step x ih =>
    rw [node_eq, Node.ids_eq]
    exact (opens_arrive scope x r).trans
      (opens_all (fun y mem r' => ih y mem (inside scope x r) r') _)

end Resolution

/-! ## The scope around a scope -/

namespace Script.Node

/-- Whether the innermost function or block around position `q` stands at `q'`. -/
structure IsEnclosing (root : Node) (q q' : List Nat) : Prop where
  around : Inside q q'
  scope : ∃ z, root.at? q' = some z ∧ z.id?.isSome = true
  innermost : ∀ q'' z, Inside q q'' → Inside q'' q' → root.at? q'' = some z → z.id? = none

theorem resolvedScopeWithin_of_plain {root z : Node} {q : List Nat} (found : root.at? q = some z)
    (plain : z.id? = none) : root.resolvedScopeWithin q = root.resolvedScope q := by
  simp [resolvedScopeWithin, resolvedScope, found, Resolution.inside, plain]

/-- Where no function or block stands between two positions, the inner one is in the scope that
there is within the outer one. -/
theorem resolvedScope_of_plain {root y : Node} {q' rest : List Nat} {i : Nat}
    (found : root.at? (q' ++ i :: rest) = some y)
    (plain : ∀ q'' z, Inside (q' ++ i :: rest) q'' → Inside q'' q' → root.at? q'' = some z →
      z.id? = none) :
    root.resolvedScope (q' ++ i :: rest) = root.resolvedScopeWithin q' := by
  -- outward, one position at a time
  induction rest using List.reverseRecOn generalizing y with
  | nil => exact resolvedScope_snoc found
  | append_singleton rest j ih =>
    have split : q' ++ i :: (rest ++ [j]) = (q' ++ i :: rest) ++ [j] := by simp
    rw [split] at found plain ⊢
    obtain ⟨z, above, -⟩ := at?_snoc found
    have here : z.id? = none := plain _ z (inside_snoc.2 (.inl rfl)) ⟨i, rest, rfl⟩ above
    rw [resolvedScope_snoc found, resolvedScopeWithin_of_plain above here]
    exact ih above fun q'' w around inner => plain q'' w (inside_snoc.2 (.inr around)) inner

end Script.Node

namespace ScopeTree

/-- The scope around the scope of a node. -/
def parentOf? (t : ScopeTree) (node : Nat) : Option ScopeId :=
  (t.scopeOf? node).bind fun k => t.scopes[k]?.bind Scope.parent

section

variable {script : List Statement} {templates : List Expression}

theorem length_resolve :
    (resolve script templates).scopes.length = (program script templates).ids.length + 1 := by
  rw [resolve_eq_program, Nat.add_comm]
  exact (Resolution.opens_node rootScope (program script templates) .start).length

theorem nodes_resolve :
    (resolve script templates).nodes = ((program script templates).ids.zipIdx 1).reverse := by
  rw [resolve_eq_program]
  refine (Resolution.opens_node rootScope (program script templates) .start).nodes.trans ?_
  exact List.append_nil _

/-- Distinct ids are distinct keys of the node map. -/
theorem nodup_keys (distinct : (program script templates).ids.Nodup) :
    ((resolve script templates).nodes.map Prod.fst).Nodup := by
  rw [nodes_resolve, List.map_reverse, List.zipIdx_map_fst]
  exact List.nodup_reverse.2 distinct

/-- With distinct ids, the node map leads from the `n`th of them to scope `n + 1`. -/
theorem scopeOf?_eq_some_iff (distinct : (program script templates).ids.Nodup) {id : Nat}
    {k : ScopeId} :
    (resolve script templates).scopeOf? id = some k ↔
      ∃ n, k = n + 1 ∧ (program script templates).ids[n]? = some id := by
  have entry : (id, k) ∈ (resolve script templates).nodes ↔
      ∃ n, k = n + 1 ∧ (program script templates).ids[n]? = some id := by
    rw [nodes_resolve, List.mem_reverse, List.mk_mem_zipIdx_iff_le_and_getElem?_sub]
    constructor
    · rintro ⟨pos, found⟩
      exact ⟨k - 1, (Nat.sub_add_cancel pos).symm, found⟩
    · rintro ⟨n, rfl, found⟩
      exact ⟨Nat.le_add_left 1 n, found⟩
  rw [← entry]
  constructor
  · intro mapped
    obtain ⟨⟨id', k'⟩, found, rfl⟩ := Option.map_eq_some_iff.1 mapped
    obtain rfl : id' = id := by simpa using List.find?_some found
    exact List.mem_of_find?_eq_some found
  · exact fun mem => scopeOf?_of_mem (nodup_keys distinct) mem

/-- **With distinct ids, the node map is one to one** between them and the scopes inside the
root. -/
theorem bijOn_scopeOf? (distinct : (program script templates).ids.Nodup) :
    Set.BijOn (resolve script templates).scopeOf? {id | id ∈ (program script templates).ids}
      {scope | ∃ k, scope = some k ∧ k ≠ rootScope ∧
        k < (resolve script templates).scopes.length} := by
  -- the node with the `n`-th id has scope `n + 1`, since the root has the first
  refine ⟨?_, ?_, ?_⟩
  · intro id mem
    obtain ⟨n, found⟩ := List.mem_iff_getElem?.1 mem
    have lt := (List.getElem?_eq_some_iff.1 found).1
    refine ⟨n + 1, (scopeOf?_eq_some_iff distinct).2 ⟨n, rfl, found⟩, Nat.succ_ne_zero n, ?_⟩
    rw [length_resolve]
    exact Nat.succ_lt_succ lt
  · intro id mem id' mem' same
    obtain ⟨n, found⟩ := List.mem_iff_getElem?.1 mem
    have mapped := (scopeOf?_eq_some_iff distinct).2 ⟨n, rfl, found⟩
    obtain ⟨n', next, found'⟩ := (scopeOf?_eq_some_iff distinct).1 (same.symm.trans mapped)
    obtain rfl := Nat.succ.inj next
    exact Option.some.inj (found.symm.trans found')
  · rintro _ ⟨k, rfl, inner, lt⟩
    obtain ⟨n, rfl⟩ := Nat.exists_eq_succ_of_ne_zero inner
    rw [length_resolve] at lt
    have found := List.getElem?_eq_getElem (Nat.lt_of_succ_lt_succ lt)
    exact ⟨_, List.mem_of_getElem? found, (scopeOf?_eq_some_iff distinct).2 ⟨n, rfl, found⟩⟩

/-- With distinct ids, the node map leads to the scope that the resolver opened for a node. -/
theorem scopeOf?_resolve (distinct : (program script templates).ids.Nodup) {q : List Nat}
    {z : Node} {id : Nat} (found : (program script templates).at? q = some z)
    (has : z.id? = some id) :
    (resolve script templates).scopeOf? id =
      some ((program script templates).resolvedScopeWithin q) :=
  scopeOf?_of_mem (nodup_keys distinct) ((settled_resolve found has).registered id has)

/-- With distinct ids, the scope of a node hangs below the scope with which the resolver comes to
it. -/
theorem parentOf?_resolve (distinct : (program script templates).ids.Nodup) {q : List Nat}
    {z : Node} {id : Nat} (found : (program script templates).at? q = some z)
    (has : z.id? = some id) :
    (resolve script templates).parentOf? id =
      some ((program script templates).resolvedScope q) := by
  have nested := (settled_resolve found has).nested
  rw [shape_getElem?, Option.map_eq_some_iff] at nested
  obtain ⟨scope, here, same⟩ := nested
  rw [parentOf?, scopeOf?_resolve distinct found has, Option.bind_some, here, Option.bind_some]
  exact congrArg Prod.fst same

/-- **A scope hangs below the scope of the innermost function or block** around its node. -/
theorem parentOf?_of_enclosing (distinct : (program script templates).ids.Nodup)
    {q q' : List Nat} {z z' : Node} {id id' : Nat}
    (found : (program script templates).at? q = some z) (has : z.id? = some id)
    (enclosing : (program script templates).IsEnclosing q q')
    (found' : (program script templates).at? q' = some z') (has' : z'.id? = some id') :
    (resolve script templates).parentOf? id = (resolve script templates).scopeOf? id' := by
  obtain ⟨i, rest, rfl⟩ := enclosing.around
  rw [parentOf?_resolve distinct found has, scopeOf?_resolve distinct found' has',
    Node.resolvedScope_of_plain found enclosing.innermost]

/-- A scope hangs below the root if no function or block stands around its node. -/
theorem parentOf?_of_outermost (distinct : (program script templates).ids.Nodup)
    {q : List Nat} {z : Node} {id : Nat} (found : (program script templates).at? q = some z)
    (has : z.id? = some id)
    (outermost : ∀ q' z', Inside q q' → (program script templates).at? q' = some z' →
      z'.id? = none) :
    (resolve script templates).parentOf? id = some rootScope := by
  rw [parentOf?_resolve distinct found has]
  cases q with
  | nil => rfl
  | cons i rest =>
    have top : (program script templates).resolvedScope ([] ++ i :: rest) =
        (program script templates).resolvedScopeWithin [] :=
      Node.resolvedScope_of_plain found fun q'' z' around _ => outermost q'' z' around
    exact congrArg some top

end

end ScopeTree

/-! ## The whole list -/

section

open Resolution (Stage)
open Resolution.Stage (step?)
open StateTransition (Reaches)

/-- What it means that the list of scopes is in order, at every stage of the pass over a script with
its template expressions and at the end. -/
structure ScopesInOrder (script : List Statement) (templates : List Expression) : Prop where
  /-- The root is a function scope of its own, every other scope comes after the one around it, and
  every number that is stored or pending is the number of a scope. -/
  sound : ∀ m, Reaches step? (Stage.start script templates) m → m.Sound
  /-- The searches outward from any scope end. -/
  searches : ∀ m, Reaches step? (Stage.start script templates) m →
    ∀ k < m.state.nextScope, m.state.tree.SearchesEnd k
  /-- These are all the stages on the way to the end. -/
  ends : ∀ m, Reaches step? (Stage.start script templates) m →
    Reaches step? m ⟨[], Stage.final script templates⟩
  /-- The state at the end becomes the scope tree. -/
  resolved : ScopeTree.resolve script templates = (Stage.final script templates).finish
  answers : ∀ k < (ScopeTree.resolve script templates).scopes.length,
    (ScopeTree.resolve script templates).SearchesEnd k
  /-- Besides the root there is one scope for each function and block. -/
  count : (ScopeTree.resolve script templates).scopes.length =
    (program script templates).ids.length + 1
  /-- They are registered in source order; the latest entry comes first. -/
  numbered : (ScopeTree.resolve script templates).nodes =
    ((program script templates).ids.zipIdx 1).reverse
  /-- With distinct ids, the node map is one to one onto the scopes inside the root. -/
  oneToOne : (program script templates).ids.Nodup →
    Set.BijOn (ScopeTree.resolve script templates).scopeOf?
      {id | id ∈ (program script templates).ids}
      {scope | ∃ k, scope = some k ∧ k ≠ rootScope ∧
        k < (ScopeTree.resolve script templates).scopes.length}
  /-- With distinct ids, a scope hangs below that of the innermost function or block around its
  node. -/
  enclosed : (program script templates).ids.Nodup → ∀ q q' z z' id id',
    (program script templates).at? q = some z → z.id? = some id →
    (program script templates).IsEnclosing q q' →
    (program script templates).at? q' = some z' → z'.id? = some id' →
    (ScopeTree.resolve script templates).parentOf? id =
      (ScopeTree.resolve script templates).scopeOf? id'
  /-- If there is none, it hangs below the root. -/
  outermost : (program script templates).ids.Nodup → ∀ q z id,
    (program script templates).at? q = some z → z.id? = some id →
    (∀ q' z', Inside q q' → (program script templates).at? q' = some z' → z'.id? = none) →
    (ScopeTree.resolve script templates).parentOf? id = some rootScope

/-- **The list of scopes is in order** after every step of the resolver, for every script and every
list of template expressions. -/
theorem resolve_scopesInOrder (script : List Statement) (templates : List Expression) :
    ScopesInOrder script templates where
  sound _ reached := Stage.sound_of_reaches reached
  searches _ reached _ lt :=
    ScopeTree.searchesEnd (Stage.sound_of_reaches reached).wellFormed.ordered lt
  ends _ reached := Stage.reaches_end reached
  resolved := ScopeTree.resolve_eq script templates
  answers _ lt := ScopeTree.searchesEnd (ScopeTree.ordered_resolve script templates) lt
  count := ScopeTree.length_resolve
  numbered := ScopeTree.nodes_resolve
  oneToOne := ScopeTree.bijOn_scopeOf?
  enclosed distinct _ _ _ _ _ _ found has enclosing found' has' :=
    ScopeTree.parentOf?_of_enclosing distinct found has enclosing found' has'
  outermost distinct _ _ _ found has outermost :=
    ScopeTree.parentOf?_of_outermost distinct found has outermost

/-- `function f(a) { { let b = a; } }`, with 1 for the function and 2 for the block. -/
def blockInFunction : List Statement :=
  [.function ⟨1, ⟨some "f", false, false, false, ["a"], ["a"]⟩,
    .block [.block 2 [.declaration .lexical [⟨.identifier "b", some (.identifier "a")⟩]]]⟩]

theorem ids_blockInFunction : (program blockInFunction []).ids = [1, 2] := by
  simp only [program, blockInFunction, Node.ids, Node.subnodes_eq, Node.children,
    Node.ofStatement, Node.ofFunction, Node.ofExpression, List.map_cons, List.map_nil,
    List.append_nil, List.flatMap_cons, List.flatMap_nil, Option.toList_some]
  rfl

theorem isEnclosing_blockInFunction :
    (program blockInFunction []).IsEnclosing [0, 0, 0] [0, 0] where
  around := ⟨0, [], rfl⟩
  scope := ⟨_, rfl, rfl⟩
  innermost q'' z around inner _ := by
    obtain ⟨i, rest, eq⟩ := around
    obtain ⟨j, rest', rfl⟩ := inner
    -- a position between the two would be longer than the one and shorter than the other
    simp at eq

/-- The scope of the block hangs below that of the function, and that one below the root. -/
theorem resolve_scopesInOrder_blockInFunction :
    (program blockInFunction []).ids.Nodup ∧
      (ScopeTree.resolve blockInFunction []).scopeOf? 1 = some 1 ∧
      (ScopeTree.resolve blockInFunction []).parentOf? 2 =
        (ScopeTree.resolve blockInFunction []).scopeOf? 1 ∧
      (ScopeTree.resolve blockInFunction []).parentOf? 1 = some rootScope := by
  have inOrder := resolve_scopesInOrder blockInFunction []
  have distinct : (program blockInFunction []).ids.Nodup := by
    rw [ids_blockInFunction]
    decide
  refine ⟨distinct, by decide, ?_, ?_⟩
  · exact inOrder.enclosed distinct [0, 0, 0] [0, 0] _ _ 2 1 rfl rfl isEnclosing_blockInFunction rfl
      rfl
  · refine inOrder.outermost distinct [0, 0] _ 1 rfl rfl fun q' z' around found => ?_
    obtain ⟨i, rest, eq⟩ := around
    rcases q' with _ | ⟨j, _ | ⟨j', more⟩⟩
    · cases found
      rfl
    · obtain rfl : 0 = j := (List.cons.inj eq).1
      cases found
      rfl
    · simp at eq

end

end ReactiveMarkup
