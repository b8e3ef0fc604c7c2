import Mathlib.Data.List.Induction
import ReactiveMarkup.Proofs.ScopeBinding

/-!
# The owner of a name at a position

The resolver comes to every position of a program with a scope and with the state that the positions
before have left (`Resolution.comesTo`). The scope of a function or block is settled when the
resolver leaves it: it hangs below the scope with which the resolver came there, and it declares the
names that the function or block binds (`Resolution.settled_at`). Nothing that is resolved later
changes that.

So the search for the owner of a name, which climbs from scope to scope, goes through the functions
and blocks around the position and stops at the innermost one that binds the name, wherever in it
the declaration stands. The names that are reported as free are those with an occurrence around
which nothing binds them (`resolve_followsLexicalScoping`).
-/

namespace ReactiveMarkup

open Script (Expression Statement Node)
open Script.Node (Inside)

namespace Script.Node

/-- The names that a node itself refers to. -/
def ownReferences : Node → List String
  | .statement (.verbatim _ names) => names
  | .expression (.identifier name) => [name]
  | .expression (.assignment _ target _) => target.ownNames
  | .expression (.update _ _ target) => target.ownNames
  | .expression (.verbatim _ names) => names
  | _ => []

theorem inside_iff_proper {p q : List Nat} : Inside p q ↔ q <+: p ∧ q ≠ p := by
  constructor
  · rintro ⟨i, rest, rfl⟩
    exact ⟨List.prefix_append _ _, by simp⟩
  · rintro ⟨⟨rest, rfl⟩, different⟩
    cases rest with
    | nil => simp at different
    | cons i rest => exact ⟨i, rest, rfl⟩

/-- Around a child stand its parent and what stands around the parent. -/
theorem inside_snoc {q q' : List Nat} {i : Nat} : Inside (q ++ [i]) q' ↔ q' = q ∨ Inside q q' := by
  rw [inside_iff_proper, inside_iff_proper, List.prefix_concat_iff]
  constructor
  · rintro ⟨rfl | before, different⟩
    · exact absurd rfl different
    · by_cases same : q' = q
      · exact .inl same
      · exact .inr ⟨before, same⟩
  · rintro (rfl | ⟨before, -⟩)
    · exact ⟨.inr (List.prefix_refl q'), by simp⟩
    · refine ⟨.inr before, ?_⟩
      rintro rfl
      have shorter := before.length_le
      rw [List.length_append, List.length_singleton] at shorter
      omega

/-- A script never stands inside another node. -/
theorem script_not_mem_children (x : Node) (body : List Statement) :
    Node.script body ∉ x.children := by
  cases x with
  | script body' => simp [children]
  | statement s => cases s <;> simp [children, ofStatement]
  | declarator kind d => simp [children]
  | function f =>
    obtain ⟨id, signature, functionBody⟩ := f
    cases functionBody <;> simp [children, ofFunction]
  | expression e => cases e <;> simp [children, ofExpression]

theorem at?_snoc {x y : Node} {q : List Nat} {i : Nat} (found : x.at? (q ++ [i]) = some y) :
    ∃ z, x.at? q = some z ∧ z.children[i]? = some y := by
  rw [at?_append] at found
  obtain ⟨z, above, child⟩ := Option.bind_eq_some_iff.1 found
  refine ⟨z, above, ?_⟩
  obtain ⟨c, child, same⟩ := Option.bind_eq_some_iff.1 child
  exact child.trans same

/-- Below the top level, what binds a name is a function or block. -/
theorem Binds.exists_id {root z : Node} {q : List Nat} {name : String} (binds : z.Binds name)
    (found : root.at? q = some z) (below : q ≠ []) : ∃ id, z.id? = some id := by
  obtain ⟨q', i, rfl⟩ := List.eq_nil_or_concat q |>.resolve_left below
  rw [List.concat_eq_append] at found
  obtain ⟨parent, -, child⟩ := at?_snoc found
  have scope := binds.isScope
  cases z with
  | script body => exact absurd (List.mem_of_getElem? child) (script_not_mem_children parent body)
  | _ => exact Option.isSome_iff_exists.1 scope

end Script.Node

namespace Resolution

/-- The state with which the resolver comes to a child of a node. -/
def before (scope : ScopeId) (x : Node) (r : Resolution) (i : Nat) : Resolution :=
  all (inside scope x r) (x.children.take i) (arrive scope x r)

/-- The scope and the state with which the resolver comes to a position of a node. -/
def comesTo (scope : ScopeId) (x : Node) (r : Resolution) : List Nat → ScopeId × Resolution
  | [] => (scope, r)
  | i :: rest =>
    match x.children[i]? with
    | none => (scope, r)
    | some c => comesTo (inside scope x r) c (before scope x r i) rest

theorem comesTo_cons {scope : ScopeId} {x c : Node} {r : Resolution} {i : Nat}
    (child : x.children[i]? = some c) (rest : List Nat) :
    comesTo scope x r (i :: rest) = comesTo (inside scope x r) c (before scope x r i) rest := by
  rw [comesTo, child]

theorem comesTo_snoc {scope : ScopeId} {x y z : Node} {r : Resolution} {q : List Nat} {i : Nat}
    (above : x.at? q = some z) (child : z.children[i]? = some y) :
    (comesTo scope x r (q ++ [i])).1 =
      inside (comesTo scope x r q).1 z (comesTo scope x r q).2 := by
  induction q generalizing scope x r with
  | nil =>
    cases above
    exact congrArg Prod.fst (comesTo_cons child [])
  | cons j rest ih =>
    obtain ⟨c, first, above⟩ := Option.bind_eq_some_iff.1 above
    rw [List.cons_append, comesTo_cons first, comesTo_cons first]
    exact ih above

/-- What is known when the resolver comes to a child, and what it adds after the child. -/
structure Passes (scope : ScopeId) (x : Node) (r : Resolution) (i : Nat) (c : Node) : Prop where
  ordered : (before scope x r i).tree.Ordered
  lt : inside scope x r < (before scope x r i).tree.scopes.length
  later : r.nextScope ≤ (before scope x r i).nextScope
  left : (node (inside scope x r) c (before scope x r i)).tree.Ordered
  behind : ∃ lexical vars ids, Adds (node (inside scope x r) c (before scope x r i))
    (node scope x r) (inside scope x r) lexical vars ids

theorem passes {scope : ScopeId} {x c : Node} {r : Resolution} {i : Nat}
    (child : x.children[i]? = some c) (ordered : r.tree.Ordered)
    (lt : scope < r.tree.scopes.length) : Passes scope x r i c := by
  obtain ⟨ordered₀, lt₀, longer⟩ := inside_lt_arrive ordered lt x
  have split : x.children = x.children.take i ++ c :: x.children.drop (i + 1) := by
    obtain ⟨bound, eq⟩ := List.getElem?_eq_some_iff.1 child
    rw [← eq, List.getElem_cons_drop, List.take_append_drop]
  have eq := node_eq scope x r
  rw [split, all_append, all_cons] at eq
  have first := adds_nodes (x.children.take i) ordered₀ lt₀
  have lt₁ := Nat.lt_of_lt_of_le lt₀ first.length_le
  have here := adds_node c first.ordered lt₁
  have behind := adds_nodes (x.children.drop (i + 1)) here.ordered
    (Nat.lt_of_lt_of_le lt₁ here.length_le)
  rw [← eq] at behind
  exact ⟨first.ordered, lt₁, Nat.le_trans longer first.length_le, here.ordered, _, _, _, behind⟩

/-- The resolver only ever adds scopes on its way to a position. -/
theorem nextScope_le_comesTo {scope : ScopeId} {x : Node} {r : Resolution} (q : List Nat)
    (ordered : r.tree.Ordered) (lt : scope < r.tree.scopes.length) :
    r.nextScope ≤ (comesTo scope x r q).2.nextScope := by
  induction q generalizing scope x r with
  | nil => exact Nat.le_refl _
  | cons i rest ih =>
    cases child : x.children[i]? with
    | none => exact Nat.le_of_eq (by rw [comesTo, child])
    | some c =>
      have known := passes child ordered lt
      rw [comesTo_cons child]
      exact Nat.le_trans known.later (ih known.ordered known.lt)

/-! ## Settled scopes -/

/-- In a tree, the scope of a function or block hangs below another scope, declares what the
function or block binds, and is registered under its id. -/
structure Settled (t : ScopeTree) (k parent : ScopeId) (x : Node) : Prop where
  nested : t.shape[k]? = some (some parent, opensFunction x)
  declares : ∀ name, t.declaresAt k name = true ↔ x.Binds name
  registered : ∀ id, x.id? = some id → (id, k) ∈ t.nodes

namespace Settled

variable {k parent : ScopeId} {x : Node}

/-- Resolving more in an earlier scope leaves a settled scope as it is. -/
theorem after {r r' : Resolution} {scope : ScopeId} {lexical vars : List String} {ids : List Nat}
    (h : Settled r.tree k parent x) (ordered : r.tree.Ordered)
    (adds : Adds r r' scope lexical vars ids) (earlier : scope < k) :
    Settled r'.tree k parent x where
  nested := by
    have lt : k < r.tree.scopes.length := by
      simpa using (List.getElem?_eq_some_iff.1 h.nested).1
    exact (ScopeTree.shape_getElem?_of_grown adds.grown lt).trans h.nested
  declares name := by
    have lt : k < r.tree.scopes.length := by
      simpa using (List.getElem?_eq_some_iff.1 h.nested).1
    have different : k ≠ scope := (Nat.ne_of_lt earlier).symm
    have different' : k ≠ r.tree.functionScope scope :=
      (Nat.ne_of_lt (Nat.lt_of_le_of_lt (ScopeTree.functionScope_le ordered scope) earlier)).symm
    rw [adds.declares lt, ← h.declares name]
    simp [different, different']
  registered id has := by
    obtain ⟨entries, nodes, -⟩ := adds.nodes
    rw [nodes]
    exact List.mem_append_right entries (h.registered id has)

end Settled

/-- **Every function and block has its scope settled** when the resolver has left the node that it
stands in. -/
theorem settled_at {scope : ScopeId} {x z : Node} {r : Resolution} {q : List Nat} {id : Nat}
    (found : x.at? q = some z) (has : z.id? = some id) (ordered : r.tree.Ordered)
    (lt : scope < r.tree.scopes.length) :
    Settled (node scope x r).tree (comesTo scope x r q).2.nextScope (comesTo scope x r q).1 z := by
  induction q generalizing scope x r with
  | nil =>
    cases found
    have completed := completed_node has ordered lt fun y _ r' ordered' scope' lt' =>
      adds_node y ordered' lt'
    have isFrame := frame_of_scope has
    refine ⟨completed.nested, fun name => ?_, fun id' has' => ?_⟩
    · exact (completed.declares _ isFrame name).trans (Node.mem_frame?_iff isFrame)
    · obtain rfl := Option.some.inj (has.symm.trans has')
      exact completed.registered
  | cons i rest ih =>
    obtain ⟨c, child, found⟩ := Option.bind_eq_some_iff.1 found
    have known := passes child ordered lt
    obtain ⟨lexical, vars, ids, behind⟩ := known.behind
    have settled := ih found known.ordered known.lt
    -- nodes behind the one in question open later scopes, and declare in none that is settled
    have earlier : inside scope x r <
        (comesTo (inside scope x r) c (before scope x r i) rest).2.nextScope :=
      Nat.lt_of_lt_of_le known.lt (nextScope_le_comesTo rest known.ordered known.lt)
    rw [comesTo_cons child]
    exact settled.after known.left behind earlier

/-! ## References -/

theorem references_arrive (scope : ScopeId) (x : Node) (r : Resolution) :
    (arrive scope x r).references = r.references ++ x.ownReferences.map (scope, ·) := by
  cases x with
  | script body => simp [arrive, Node.ownReferences]
  | statement s =>
    cases s <;> simp [arrive, Node.ownReferences, declare, enter, refer]
  | declarator kind d => simp [arrive, Node.ownReferences, declare]
  | function f => simp [arrive, Node.ownReferences, declare, enter]
  | expression e => cases e <;> simp [arrive, Node.ownReferences, refer]

/-- Whether a reference is made at some position of a node, from the scope with which the resolver
comes there. -/
def RefersAt (scope : ScopeId) (x : Node) (r : Resolution) (entry : ScopeId × String) : Prop :=
  ∃ p y, x.at? p = some y ∧ entry.2 ∈ y.ownReferences ∧ entry.1 = (comesTo scope x r p).1

/-- What resolving something adds to the references: entries of which a property tells which. -/
def NotesExactly (r r' : Resolution) (noted : ScopeId × String → Prop) : Prop :=
  ∃ more, r'.references = r.references ++ more ∧ ∀ entry, entry ∈ more ↔ noted entry

theorem notesExactly_all {scope : ScopeId} {xs : List Node}
    (each : ∀ x ∈ xs, ∀ r : Resolution,
      NotesExactly r (node scope x r) (RefersAt scope x r)) (r : Resolution) :
    NotesExactly r (all scope xs r) fun entry =>
      ∃ i c, xs[i]? = some c ∧ RefersAt scope c (all scope (xs.take i) r) entry := by
  induction xs generalizing r with
  | nil => exact ⟨[], by simp, by simp⟩
  | cons x rest ih =>
    obtain ⟨first, eq, mem_first⟩ := each x List.mem_cons_self r
    obtain ⟨others, eq', mem_others⟩ :=
      ih (fun y mem => each y (List.mem_cons_of_mem x mem)) (node scope x r)
    refine ⟨first ++ others, by rw [all_cons, eq', eq, List.append_assoc], fun entry => ?_⟩
    rw [List.mem_append, mem_first, mem_others]
    constructor
    · rintro (refers | ⟨i, c, child, refers⟩)
      · exact ⟨0, x, rfl, refers⟩
      · exact ⟨i + 1, c, child, refers⟩
    · rintro ⟨i, c, child, refers⟩
      cases i with
      | zero =>
        cases child
        exact .inl refers
      | succ i => exact .inr ⟨i, c, child, refers⟩

/-- **The references that the resolver notes** are those made at the positions, each with the scope
of its position. -/
theorem notesExactly_node (scope : ScopeId) (x : Node) (r : Resolution) :
    NotesExactly r (node scope x r) (RefersAt scope x r) := by
  induction x using Node.induction generalizing scope r with
  | step x ih =>
    obtain ⟨more, eq, mem_more⟩ := notesExactly_all
      (fun y mem r' => ih y mem (inside scope x r) r') (arrive scope x r)
    rw [NotesExactly, node_eq, eq, references_arrive, List.append_assoc]
    refine ⟨_, rfl, fun entry => ?_⟩
    rw [List.mem_append, mem_more]
    constructor
    · rintro (here | ⟨i, c, child, p, y, found, mem, from_⟩)
      · obtain ⟨name, mem, rfl⟩ := List.mem_map.1 here
        exact ⟨[], x, rfl, mem, rfl⟩
      · refine ⟨i :: p, y, ?_, mem, ?_⟩
        · rw [Node.at?, child]
          exact found
        · rw [comesTo_cons child]
          exact from_
    · rintro ⟨p, y, found, mem, from_⟩
      cases p with
      | nil =>
        cases found
        refine .inl (List.mem_map.2 ⟨entry.2, mem, ?_⟩)
        rw [← show entry.1 = scope from from_]
      | cons i p =>
        obtain ⟨c, child, found⟩ := Option.bind_eq_some_iff.1 found
        rw [comesTo_cons child] at from_
        exact .inr ⟨i, c, child, p, y, found, mem, from_⟩

theorem mem_references_node {scope : ScopeId} {x : Node} {r : Resolution}
    {entry : ScopeId × String} :
    entry ∈ (node scope x r).references ↔
      entry ∈ r.references ∨ RefersAt scope x r entry := by
  obtain ⟨more, eq, mem_more⟩ := notesExactly_node scope x r
  rw [eq, List.mem_append, mem_more]

/-- A template expression is resolved as the statement that it would be. -/
theorem all_templates (scope : ScopeId) (es : List Expression) (r : Resolution) :
    all scope ((es.map Statement.expression).map Node.statement) r =
      all scope (es.map Node.expression) r := by
  induction es generalizing r with
  | nil => rfl
  | cons e rest ih => exact ih _

end Resolution

/-! ## The search for the owner -/

namespace ScopeTree

variable {t : ScopeTree}

/-- With enough steps, their number does not matter. -/
theorem ownerWithin_congr (ordered : t.Ordered) (name : String) {fuel fuel' id : Nat}
    (enough : id < fuel) (enough' : id < fuel') :
    t.ownerWithin name fuel id = t.ownerWithin name fuel' id := by
  induction fuel generalizing fuel' id with
  | zero => exact absurd enough (Nat.not_lt_zero id)
  | succ fuel ih =>
    obtain ⟨fuel', rfl⟩ := Nat.exists_eq_succ_of_ne_zero (Nat.ne_of_gt (Nat.zero_lt_of_lt enough'))
    rw [ownerWithin_succ, ownerWithin_succ]
    rcases nested : t.shape[id]? with _ | ⟨_ | parent, isFunction⟩
    · rfl
    · rfl
    · have below := ordered.parent_lt nested
      have same : t.ownerWithin name fuel parent = t.ownerWithin name fuel' parent :=
        ih (by omega) (by omega)
      simp only [same]

theorem owner?_eq (ordered : t.Ordered) (name : String) {id : Nat}
    (lt : id < t.scopes.length) :
    t.owner? id name =
      if t.declaresAt id name then some id
      else
        match t.shape[id]? with
        | some (some parent, _) => t.owner? parent name
        | _ => none := by
  rw [owner?, ownerWithin_congr ordered name lt (Nat.lt_succ_self id), ownerWithin_succ]
  rcases nested : t.shape[id]? with _ | ⟨_ | parent, isFunction⟩
  · rfl
  · rfl
  · have below := ordered.parent_lt nested
    have same : t.ownerWithin name id parent = t.owner? parent name :=
      ownerWithin_congr ordered name below (Nat.lt_trans below lt)
    simp only [same]

/-- The free names are noted last and change no owner. -/
theorem owner?_finish (r : Resolution) (id : ScopeId) (name : String) :
    r.finish.owner? id name = r.tree.owner? id name := by
  have within : ∀ fuel id, r.finish.ownerWithin name fuel id = r.tree.ownerWithin name fuel id := by
    intro fuel
    induction fuel with
    | zero => intro id; rfl
    | succ fuel ih =>
      intro id
      rw [ownerWithin_succ, ownerWithin_succ]
      simp only [ih]
      rfl
  exact within _ id

/-- From a settled scope, the search ends there or goes on in the scope around it. -/
theorem owner?_of_settled {k parent : ScopeId} {x : Node} {name : String}
    (settled : Resolution.Settled t k parent x) (ordered : t.Ordered) :
    (x.Binds name → t.owner? k name = some k) ∧
      (¬ x.Binds name → t.owner? k name = t.owner? parent name) := by
  have lt : k < t.scopes.length := by
    simpa using (List.getElem?_eq_some_iff.1 settled.nested).1
  have eq := owner?_eq ordered name lt
  rw [settled.nested] at eq
  constructor
  · intro binds
    rw [eq, if_pos ((settled.declares name).2 binds)]
  · intro free
    rw [eq, if_neg (fun declared => free ((settled.declares name).1 declared))]

end ScopeTree

/-! ## Programs -/

/-- A script with its template expressions, which stand at the top level behind it. -/
def program (script : List Statement) (templates : List Expression) : Node :=
  .script (script ++ templates.map .expression)

namespace Script.Node

/-- The scope that the resolver gives a position of a program. -/
def resolvedScope (root : Node) (p : List Nat) : ScopeId :=
  (Resolution.comesTo rootScope root .start p).1

/-- The scope that the resolver gives to what stands directly inside the node at a position: for a
function or block the one that it opens there. -/
def resolvedScopeWithin (root : Node) (q : List Nat) : ScopeId :=
  let (scope, r) := Resolution.comesTo rootScope root .start q
  ((root.at? q).map fun z => Resolution.inside scope z r).getD scope

/-- Whether `q` is the innermost position around `p` whose node binds a name. -/
structure IsBinder (root : Node) (p q : List Nat) (name : String) : Prop where
  around : Inside p q
  binds : ∃ z, root.at? q = some z ∧ z.Binds name
  innermost : ∀ q' z, Inside p q' → Inside q' q → root.at? q' = some z → ¬ z.Binds name

/-- Whether no node around a position binds a name. -/
def Unbound (root : Node) (p : List Nat) (name : String) : Prop :=
  ∀ q z, Inside p q → root.at? q = some z → ¬ z.Binds name

theorem resolvedScope_snoc {root y : Node} {q : List Nat} {i : Nat}
    (found : root.at? (q ++ [i]) = some y) :
    root.resolvedScope (q ++ [i]) = root.resolvedScopeWithin q := by
  obtain ⟨z, above, child⟩ := at?_snoc found
  rw [resolvedScope, Resolution.comesTo_snoc above child]
  simp [resolvedScopeWithin, above]

theorem isBinder_snoc_of_binds {root z : Node} {q q' : List Nat} {i : Nat} {name : String}
    (above : root.at? q = some z) (binds : z.Binds name) :
    root.IsBinder (q ++ [i]) q' name ↔ q' = q := by
  constructor
  · intro binder
    rcases inside_snoc.1 binder.around with same | outer
    · exact same
    · exact absurd binds (binder.innermost q z (inside_snoc.2 (.inl rfl)) outer above)
  · rintro rfl
    refine ⟨inside_snoc.2 (.inl rfl), ⟨z, above, binds⟩, ?_⟩
    intro q'' z' around inner _
    -- nothing stands between a child and its parent
    rcases inside_snoc.1 around with rfl | outer
    · exact absurd rfl (inside_iff_proper.1 inner).2
    · have short := (inside_iff_proper.1 outer).1.length_le
      have long := (inside_iff_proper.1 inner).1.eq_of_length_le short
      exact absurd long (inside_iff_proper.1 inner).2

theorem isBinder_snoc_of_not_binds {root z : Node} {q q' : List Nat} {i : Nat} {name : String}
    (above : root.at? q = some z) (free : ¬ z.Binds name) :
    root.IsBinder (q ++ [i]) q' name ↔ root.IsBinder q q' name := by
  constructor
  · rintro ⟨around, ⟨z', found, binds⟩, innermost⟩
    rcases inside_snoc.1 around with rfl | outer
    · cases above.symm.trans found
      exact absurd binds free
    · exact ⟨outer, ⟨z', found, binds⟩, fun q'' w between =>
        innermost q'' w (inside_snoc.2 (.inr between))⟩
  · rintro ⟨around, binds, innermost⟩
    refine ⟨inside_snoc.2 (.inr around), binds, fun q'' w between inner found => ?_⟩
    rcases inside_snoc.1 between with rfl | outer
    · cases above.symm.trans found
      exact free
    · exact innermost q'' w outer inner found

theorem unbound_snoc {root z : Node} {q : List Nat} {i : Nat} {name : String}
    (above : root.at? q = some z) :
    root.Unbound (q ++ [i]) name ↔ ¬ z.Binds name ∧ root.Unbound q name := by
  constructor
  · intro unbound
    exact ⟨unbound q z (inside_snoc.2 (.inl rfl)) above,
      fun q' w outer => unbound q' w (inside_snoc.2 (.inr outer))⟩
  · rintro ⟨free, unbound⟩ q' w around found
    rcases inside_snoc.1 around with rfl | outer
    · cases above.symm.trans found
      exact free
    · exact unbound q' w outer found

end Script.Node

namespace ScopeTree

section

variable {script : List Statement} {templates : List Expression}

theorem resolve_eq_program (script : List Statement) (templates : List Expression) :
    resolve script templates =
      (Resolution.node rootScope (program script templates) .start).finish := by
  have program_eq : Resolution.node rootScope (program script templates) .start =
      Resolution.statements rootScope (script ++ templates.map .expression) .start := rfl
  rw [resolve_eq, program_eq, Resolution.statements_eq, topLevel, List.map_append,
    Resolution.all_append, Resolution.all_append, Resolution.all_templates]

theorem ordered_resolve (script : List Statement) (templates : List Expression) :
    (resolve script templates).Ordered := by
  rw [resolve_eq_program]
  exact (Resolution.adds_node (program script templates) ordered_start Nat.one_pos).ordered.finish

/-- The root declares what the top level binds. -/
theorem owner?_root (name : String) :
    ((program script templates).Binds name →
        (resolve script templates).owner? rootScope name = some rootScope) ∧
      (¬ (program script templates).Binds name →
        (resolve script templates).owner? rootScope name = none) := by
  have lt : rootScope < Resolution.start.tree.scopes.length := Nat.one_pos
  have adds := Resolution.adds_node (program script templates) ordered_start lt
  have declares : (resolve script templates).declaresAt rootScope name = true ↔
      (program script templates).Binds name := by
    have blank : Resolution.start.tree.declaresAt rootScope name = false := rfl
    have around : Resolution.start.tree.functionScope rootScope = rootScope := rfl
    have declared := @adds.declares rootScope name Nat.one_pos
    rw [blank, around] at declared
    simp only [Bool.false_eq_true, false_or, true_and] at declared
    rw [resolve_eq_program]
    exact declared.trans Node.binds_script_iff.symm
  have ordered := ordered_resolve script templates
  have eq := owner?_eq ordered name ordered.length_pos
  rw [ordered.root] at eq
  constructor
  · intro binds
    exact eq.trans (if_pos (declares.2 binds))
  · intro free
    exact eq.trans (if_neg fun declared => free (declares.1 declared))

/-- The scope of every function and block of a program is settled. -/
theorem settled_resolve {z : Node} {q : List Nat} {id : Nat}
    (found : (program script templates).at? q = some z) (has : z.id? = some id) :
    Resolution.Settled (resolve script templates)
      ((program script templates).resolvedScopeWithin q)
      ((program script templates).resolvedScope q) z := by
  have lt : rootScope < Resolution.start.tree.scopes.length := Nat.one_pos
  have settled := Resolution.settled_at found has ordered_start lt
  have within : (program script templates).resolvedScopeWithin q =
      (Resolution.comesTo rootScope (program script templates) .start q).2.nextScope := by
    simp [Node.resolvedScopeWithin, found, Resolution.inside, has]
  rw [resolve_eq_program, within]
  exact ⟨settled.nested, settled.declares, settled.registered⟩

/-- One step of the search: from a child, it ends at the parent if that binds the name, and
otherwise goes on as from the parent. -/
theorem owner?_snoc {y z : Node} {q : List Nat} {i : Nat}
    (found : (program script templates).at? (q ++ [i]) = some y)
    (above : (program script templates).at? q = some z) (name : String) :
    (z.Binds name → (resolve script templates).owner?
        ((program script templates).resolvedScope (q ++ [i])) name =
          some ((program script templates).resolvedScopeWithin q)) ∧
      (¬ z.Binds name → (resolve script templates).owner?
          ((program script templates).resolvedScope (q ++ [i])) name =
        if q = [] then none
        else (resolve script templates).owner? ((program script templates).resolvedScope q)
          name) := by
  have ordered := ordered_resolve script templates
  rw [Node.resolvedScope_snoc found]
  by_cases top : q = []
  · subst top
    cases above
    exact owner?_root name
  · rw [if_neg top]
    -- a node without a scope of its own binds no name, unless it is the top level
    cases has : z.id? with
    | some id => exact owner?_of_settled (settled_resolve above has) ordered
    | none =>
      have stays : (program script templates).resolvedScopeWithin q =
          (program script templates).resolvedScope q := by
        simp [Node.resolvedScopeWithin, Node.resolvedScope, above, Resolution.inside, has]
      constructor
      · intro binds
        obtain ⟨id, has'⟩ := binds.exists_id above top
        cases has.symm.trans has'
      · intro _
        rw [stays]

/-- The owner of a name is the scope of the innermost node around the position that binds it. -/
theorem owner?_eq_some_iff {p : List Nat} {y : Node}
    (found : (program script templates).at? p = some y) (below : p ≠ []) {name : String}
    {k : ScopeId} :
    (resolve script templates).owner? ((program script templates).resolvedScope p) name = some k ↔
      ∃ q, (program script templates).IsBinder p q name ∧
        k = (program script templates).resolvedScopeWithin q := by
  -- outward, one position at a time
  induction p using List.reverseRecOn generalizing y with
  | nil => exact absurd rfl below
  | append_singleton q i ih =>
    obtain ⟨z, above, child⟩ := Node.at?_snoc found
    obtain ⟨ends, goesOn⟩ := owner?_snoc found above name
    by_cases binds : z.Binds name
    · rw [ends binds]
      simp [Node.isBinder_snoc_of_binds above binds, eq_comm]
    · rw [goesOn binds]
      simp only [Node.isBinder_snoc_of_not_binds above binds]
      by_cases top : q = []
      · subst top
        have nobody : ∀ q', ¬ (program script templates).IsBinder [] q' name :=
          fun q' binder => Node.not_inside_nil q' binder.around
        simp [nobody]
      · rw [if_neg top]
        exact ih above top

/-- A name has no owner if nothing around the position binds it. -/
theorem owner?_eq_none_iff {p : List Nat} {y : Node}
    (found : (program script templates).at? p = some y) (below : p ≠ []) {name : String} :
    (resolve script templates).owner? ((program script templates).resolvedScope p) name = none ↔
      (program script templates).Unbound p name := by
  induction p using List.reverseRecOn generalizing y with
  | nil => exact absurd rfl below
  | append_singleton q i ih =>
    obtain ⟨z, above, child⟩ := Node.at?_snoc found
    obtain ⟨ends, goesOn⟩ := owner?_snoc found above name
    rw [Node.unbound_snoc above]
    by_cases binds : z.Binds name
    · rw [ends binds]
      simp [binds]
    · rw [goesOn binds]
      by_cases top : q = []
      · subst top
        have nobody : (program script templates).Unbound [] name :=
          fun q' w inside => absurd inside (Node.not_inside_nil q')
        simp [binds, nobody]
      · rw [if_neg top, ih above top]
        simp [binds]

/-- The names that are reported as free. -/
theorem mem_free_resolve_iff {name : String} :
    name ∈ (resolve script templates).free ↔
      ∃ p y, (program script templates).at? p = some y ∧ name ∈ y.ownReferences ∧
        (program script templates).Unbound p name := by
  -- putting the tree together at the end changes the owner of no name
  have finished : ∀ scope,
      (Resolution.node rootScope (program script templates) .start).tree.owner? scope name =
        (resolve script templates).owner? scope name := by
    intro scope
    rw [resolve_eq_program]
    exact (owner?_finish _ scope name).symm
  have free : name ∈ (resolve script templates).free ↔
      ∃ scope, (scope, name) ∈
          (Resolution.node rootScope (program script templates) .start).references ∧
        (resolve script templates).owner? scope name = none := by
    simp only [← finished]
    rw [resolve_eq_program]
    simp [Resolution.finish, Resolution.freeNames]
  rw [free]
  constructor
  · rintro ⟨scope, mem, unowned⟩
    rcases Resolution.mem_references_node.1 mem with mem | ⟨p, y, found, mem, rfl⟩
    · cases mem
    · refine ⟨p, y, found, mem, ?_⟩
      by_cases top : p = []
      · subst top
        exact fun q w inside => absurd inside (Node.not_inside_nil q)
      · exact (owner?_eq_none_iff found top).1 unowned
  · rintro ⟨p, y, found, mem, unbound⟩
    have below : p ≠ [] := by
      rintro rfl
      cases found
      simp [program, Node.ownReferences] at mem
    exact ⟨(program script templates).resolvedScope p,
      Resolution.mem_references_node.2 (.inr ⟨p, y, found, mem, rfl⟩),
      (owner?_eq_none_iff found below).2 unbound⟩

end

end ScopeTree

/-- What it means that the scopes of a program follow the rules of lexical scoping. -/
structure FollowsLexicalScoping (root : Node) (t : ScopeTree) : Prop where
  /-- Seen from a position, a name belongs to the scope of the innermost function, block or top
  level around it that binds the name. -/
  owner : ∀ p y, root.at? p = some y → p ≠ [] → ∀ name k,
    (t.owner? (root.resolvedScope p) name = some k ↔
      ∃ q, root.IsBinder p q name ∧ k = root.resolvedScopeWithin q)
  /-- It belongs to nobody if nothing around the position binds it. -/
  nobody : ∀ p y, root.at? p = some y → p ≠ [] → ∀ name,
    (t.owner? (root.resolvedScope p) name = none ↔ root.Unbound p name)
  /-- The scope of a function or block is registered under its id. -/
  registered : ∀ q z id, root.at? q = some z → z.id? = some id →
    (id, root.resolvedScopeWithin q) ∈ t.nodes
  /-- What a scope binds does not depend on the order of its statements. -/
  reordered : ∀ x y, Node.Reordered x y → ∀ name, (x.Binds name ↔ y.Binds name)
  /-- The free names are those with an occurrence around which nothing binds them. -/
  free : ∀ name, name ∈ t.free ↔
    ∃ p y, root.at? p = some y ∧ name ∈ y.ownReferences ∧ root.Unbound p name

/-- **Scope resolution agrees with lexical scoping**, for every script and every list of template
expressions. -/
theorem resolve_followsLexicalScoping (script : List Statement) (templates : List Expression) :
    FollowsLexicalScoping (program script templates) (ScopeTree.resolve script templates) where
  owner _ _ found below _ _ := ScopeTree.owner?_eq_some_iff found below
  nobody _ _ found below _ := ScopeTree.owner?_eq_none_iff found below
  registered _ _ id found has := (ScopeTree.settled_resolve found has).registered id has
  reordered _ _ reordered _ := reordered.binds_iff
  free _ := ScopeTree.mem_free_resolve_iff

end ReactiveMarkup
