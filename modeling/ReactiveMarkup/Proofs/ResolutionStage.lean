import Mathlib.Computability.StateTransition
import ReactiveMarkup.Proofs.ResolvedPosition

/-!
# The resolver, one change at a time

The resolver keeps its scopes in a growing list, and three things point into the list by number: the
scopes around other scopes, the node map, and the references that wait until all declarations are
known. Whether such a number leads anywhere is a question about every moment of the pass, not only
about its end.

So the pass is taken apart here into single changes. A `Stage` of it is the state so far together
with the tasks that are still to be done, and a step does the first of them (`Stage.step?`): it
opens one scope, makes one entry in the node map, declares one name or notes one reference. Run to
its end, this machine computes what the resolver computes (`Stage.reaches_visit`,
`Stage.reaches_end`).

No number ever leads out of the list (`Stage.sound_of_reaches`). What carries the induction is that
everything that is pending stands in a scope that has been opened.
-/

namespace ReactiveMarkup

open Script (Expression Statement Node)
open StateTransition (Reaches)

namespace ScopeTree

/-- Opens a scope inside scope `parent`, without an entry in the node map. -/
def pushScope (t : ScopeTree) (parent : ScopeId) (isFunction : Bool) : ScopeTree :=
  { t with scopes := t.scopes ++ [⟨some parent, isFunction, []⟩] }

/-- Makes an entry in the node map. -/
def register (t : ScopeTree) (node : Nat) (id : ScopeId) : ScopeTree :=
  { t with nodes := (node, id) :: t.nodes }

@[simp] theorem length_pushScope (t : ScopeTree) (parent : ScopeId) (isFunction : Bool) :
    (t.pushScope parent isFunction).scopes.length = t.scopes.length + 1 := by
  simp [pushScope]

@[simp] theorem length_declare (t : ScopeTree) (id : ScopeId) (name : String)
    (kind : BindingKind) : (t.declare id name kind).scopes.length = t.scopes.length := by
  rw [← length_shape, ← length_shape, shape_declare]

theorem Ordered.pushScope {t : ScopeTree} (h : t.Ordered) {parent : ScopeId} (isFunction : Bool)
    (lt : parent < t.scopes.length) : (t.pushScope parent isFunction).Ordered :=
  -- the order of the scopes does not depend on the node map, so any entry will do
  (h.openScope isFunction 0 lt).of_shape_eq rfl

end ScopeTree

namespace Resolution

/-- The state in which the scope of a node is open, if the node has one. -/
def openedFor (scope : ScopeId) (x : Node) (r : Resolution) : Resolution :=
  if x.id?.isSome then { r with tree := r.tree.pushScope scope (opensFunction x) } else r

/-- Something that the resolver is going to do. -/
inductive Task
  /-- Resolve a node that stands in a scope. -/
  | visit (scope : ScopeId) (x : Node)
  /-- Make the entry of a node whose scope is open. -/
  | register (scope : ScopeId) (node : Nat)
  | declare (scope : ScopeId) (name : String) (kind : BindingKind)
  | refer (scope : ScopeId) (name : String)

/-- The scope that a task is about. -/
def Task.scope : Task → ScopeId
  | .visit scope _ => scope
  | .register scope _ => scope
  | .declare scope _ _ => scope
  | .refer scope _ => scope

/-- What there is to do at a node itself. The scope is that in which the children of the node
stand. -/
def ownTasks (scope : ScopeId) : Node → List Task
  | .statement (.function f) => f.signature.name.toList.map (.declare scope · .function)
  | .statement (.block id _) => [.register scope id]
  | .declarator kind d => d.pattern.names.map (.declare scope · (.ofDeclaration kind))
  | .function f => .register scope f.id :: f.signature.paramNames.map (.declare scope · .param)
  | x => x.ownReferences.map (.refer scope)

theorem scope_of_mem_ownTasks {scope : ScopeId} {x : Node} {task : Task}
    (mem : task ∈ ownTasks scope x) : task.scope = scope := by
  unfold ownTasks at mem
  split at mem
  · obtain ⟨name, -, rfl⟩ := List.mem_map.1 mem
    rfl
  · obtain rfl := List.mem_singleton.1 mem
    rfl
  · obtain ⟨name, -, rfl⟩ := List.mem_map.1 mem
    rfl
  · rcases List.mem_cons.1 mem with rfl | mem
    · rfl
    · obtain ⟨name, -, rfl⟩ := List.mem_map.1 mem
      rfl
  · obtain ⟨name, -, rfl⟩ := List.mem_map.1 mem
    rfl

/-- A stage of the pass: what is still to be done, in order, and the state so far. -/
structure Stage where
  pending : List Task
  state : Resolution

namespace Stage

/-- The stage at which nothing of a script and its template expressions is resolved. -/
def start (script : List Statement) (templates : List Expression) : Stage :=
  ⟨(topLevel script templates).map (.visit rootScope), .start⟩

/-- Does the first task. A visit opens the scope of the node, if it has one, and leaves the rest of
what there is to do at the node, and its children, pending. -/
def step? : Stage → Option Stage
  | ⟨[], _⟩ => none
  | ⟨.visit scope x :: rest, r⟩ =>
    some ⟨ownTasks (inside scope x r) x ++ (x.children.map (.visit (inside scope x r)) ++ rest),
      openedFor scope x r⟩
  | ⟨.register scope node :: rest, r⟩ =>
    some ⟨rest, { r with tree := r.tree.register node scope }⟩
  | ⟨.declare scope name kind :: rest, r⟩ =>
    some ⟨rest, { r with tree := r.tree.declare scope name kind }⟩
  | ⟨.refer scope name :: rest, r⟩ => some ⟨rest, r.refer scope [name]⟩

/-! ## The machine computes what the resolver computes -/

theorem reaches_declares (scope : ScopeId) (names : List String) (kind : BindingKind)
    (rest : List Task) (r : Resolution) :
    Reaches step? ⟨names.map (.declare scope · kind) ++ rest, r⟩
      ⟨rest, r.declare scope names kind⟩ := by
  induction names generalizing r with
  | nil => exact .refl
  | cons name others ih => exact .head rfl (ih { r with tree := r.tree.declare scope name kind })

theorem reaches_refers (scope : ScopeId) (names : List String) (rest : List Task)
    (r : Resolution) :
    Reaches step? ⟨names.map (.refer scope) ++ rest, r⟩ ⟨rest, r.refer scope names⟩ := by
  induction names generalizing r with
  | nil => rw [refer_nil]; exact .refl
  | cons name others ih =>
    have split : r.refer scope (name :: others) = (r.refer scope [name]).refer scope others := by
      simp [refer]
    rw [split]
    exact .head rfl (ih (r.refer scope [name]))

/-- Opening the scope of a node and doing what there is to do at the node itself is what the
resolver does before it goes on with the children. -/
theorem reaches_arrive (scope : ScopeId) (x : Node) (rest : List Task) (r : Resolution) :
    Reaches step? ⟨ownTasks (inside scope x r) x ++ rest, openedFor scope x r⟩
      ⟨rest, arrive scope x r⟩ := by
  cases x with
  | script body => exact .refl
  | statement s =>
    cases s with
    | function f => exact reaches_declares scope f.signature.name.toList .function rest r
    | block id body => exact .single rfl
    | verbatim source names => exact reaches_refers scope names rest r
    | _ => exact .refl
  | declarator kind d => exact reaches_declares scope d.pattern.names _ rest r
  | function f =>
    exact .head rfl (reaches_declares r.nextScope f.signature.paramNames .param rest _)
  | expression e =>
    cases e with
    | identifier name => exact reaches_refers scope [name] rest r
    | assignment operator target right => exact reaches_refers scope target.ownNames rest r
    | update operator leading target => exact reaches_refers scope target.ownNames rest r
    | verbatim source names => exact reaches_refers scope names rest r
    | _ => exact .refl

theorem reaches_all {xs : List Node}
    (each : ∀ x ∈ xs, ∀ (scope : ScopeId) (rest : List Task) (r : Resolution),
      Reaches step? ⟨.visit scope x :: rest, r⟩ ⟨rest, node scope x r⟩)
    (scope : ScopeId) (rest : List Task) (r : Resolution) :
    Reaches step? ⟨xs.map (.visit scope) ++ rest, r⟩ ⟨rest, all scope xs r⟩ := by
  induction xs generalizing r with
  | nil => exact .refl
  | cons x others ih =>
    have first := each x List.mem_cons_self scope (others.map (.visit scope) ++ rest) r
    exact first.trans (ih (fun y mem => each y (List.mem_cons_of_mem x mem)) (node scope x r))

/-- **A visit of a node resolves the node**, whatever else is pending. -/
theorem reaches_visit (x : Node) (scope : ScopeId) (rest : List Task) (r : Resolution) :
    Reaches step? ⟨.visit scope x :: rest, r⟩ ⟨rest, node scope x r⟩ := by
  induction x using Node.induction generalizing scope rest r with
  | step x ih =>
    rw [node_eq]
    exact .head rfl ((reaches_arrive scope x _ r).trans (reaches_all ih (inside scope x r) rest _))

/-- The state in which the resolver leaves a script with its template expressions. -/
def final (script : List Statement) (templates : List Expression) : Resolution :=
  all rootScope (topLevel script templates) .start

/-- **Every stage is on the way to the end**, where the state is the one in which the resolver
leaves the script. -/
theorem reaches_end {script : List Statement} {templates : List Expression} {m : Stage}
    (reached : Reaches step? (start script templates) m) :
    Reaches step? m ⟨[], final script templates⟩ := by
  have whole : Reaches step? (start script templates) ⟨[], final script templates⟩ := by
    have each : ∀ x ∈ topLevel script templates, ∀ (scope : ScopeId) (rest : List Task)
        (r : Resolution), Reaches step? ⟨.visit scope x :: rest, r⟩ ⟨rest, node scope x r⟩ :=
      fun x _ => reaches_visit x
    have visits := reaches_all each rootScope [] .start
    rwa [List.append_nil] at visits
  -- there is one way to go on, so of two stages that are reached one leads to the other
  rcases StateTransition.reaches_total reached whole with on | back
  · exact on
  · rcases back.cases_head with rfl | ⟨m', stepped, -⟩
    · exact .refl
    · cases stepped

/-! ## What every step keeps -/

end Stage

/-- The scopes are in order, and every number that is stored is the number of a scope. -/
structure WellFormed (r : Resolution) : Prop where
  ordered : r.tree.Ordered
  registered : ∀ entry ∈ r.tree.nodes, entry.2 < r.nextScope
  referred : ∀ entry ∈ r.references, entry.1 < r.nextScope

namespace WellFormed

variable {r : Resolution} {scope : ScopeId}

theorem openedFor (h : r.WellFormed) (lt : scope < r.nextScope) (x : Node) :
    (openedFor scope x r).WellFormed := by
  unfold Resolution.openedFor
  split
  · have longer : r.nextScope ≤ (r.tree.pushScope scope (opensFunction x)).scopes.length := by
      simp [nextScope]
    exact ⟨h.ordered.pushScope _ lt,
      fun entry mem => Nat.lt_of_lt_of_le (h.registered entry mem) longer,
      fun entry mem => Nat.lt_of_lt_of_le (h.referred entry mem) longer⟩
  · exact h

theorem register (h : r.WellFormed) (lt : scope < r.nextScope) (node : Nat) :
    WellFormed { r with tree := r.tree.register node scope } where
  ordered := h.ordered.of_shape_eq rfl
  registered entry mem := by
    rcases List.mem_cons.1 mem with rfl | mem
    · exact lt
    · exact h.registered entry mem
  referred := h.referred

theorem declare (h : r.WellFormed) (name : String) (kind : BindingKind) :
    WellFormed { r with tree := r.tree.declare scope name kind } where
  ordered := h.ordered.of_shape_eq (ScopeTree.shape_declare _ _ _ _)
  registered entry mem := by
    rw [nextScope, ScopeTree.length_declare]
    exact h.registered entry mem
  referred entry mem := by
    rw [nextScope, ScopeTree.length_declare]
    exact h.referred entry mem

theorem refer (h : r.WellFormed) (lt : scope < r.nextScope) (name : String) :
    (r.refer scope [name]).WellFormed where
  ordered := h.ordered
  registered := h.registered
  referred entry mem := by
    rcases List.mem_append.1 mem with old | new
    · exact h.referred entry old
    · obtain rfl := List.mem_singleton.1 new
      exact lt

end WellFormed

namespace Stage

/-- The state is well-formed, and everything that is pending stands in a scope that is open. -/
structure Sound (m : Stage) : Prop where
  wellFormed : m.state.WellFormed
  pending : ∀ task ∈ m.pending, task.scope < m.state.nextScope

theorem sound_start (script : List Statement) (templates : List Expression) :
    (start script templates).Sound where
  wellFormed :=
    { ordered := ScopeTree.ordered_start
      registered := by rintro entry ⟨⟩
      referred := by rintro entry ⟨⟩ }
  pending task mem := by
    obtain ⟨x, -, rfl⟩ := List.mem_map.1 mem
    exact Nat.one_pos

theorem inside_lt_openedFor {r : Resolution} {scope : ScopeId} (lt : scope < r.nextScope)
    (x : Node) :
    inside scope x r < (openedFor scope x r).nextScope ∧
      r.nextScope ≤ (openedFor scope x r).nextScope := by
  unfold inside openedFor
  split
  · simp [nextScope]
  · exact ⟨lt, Nat.le_refl _⟩

/-- One step keeps a stage sound. -/
theorem Sound.step {m m' : Stage} (sound : m.Sound) (stepped : m.step? = some m') : m'.Sound := by
  obtain ⟨wellFormed, pending⟩ := sound
  obtain ⟨_ | ⟨task, rest⟩, r⟩ := m
  · cases stepped
  have lt := pending task List.mem_cons_self
  have others : ∀ task ∈ rest, task.scope < r.nextScope :=
    fun task mem => pending task (List.mem_cons_of_mem _ mem)
  cases task with
  | visit scope x =>
    cases stepped
    -- a visit opens one scope at most, and its children are visited there
    obtain ⟨within, longer⟩ := inside_lt_openedFor lt x
    refine ⟨wellFormed.openedFor lt x, fun task mem => ?_⟩
    rcases List.mem_append.1 mem with own | mem
    · rw [scope_of_mem_ownTasks own]
      exact within
    · rcases List.mem_append.1 mem with child | mem
      · obtain ⟨y, -, rfl⟩ := List.mem_map.1 child
        exact within
      · exact Nat.lt_of_lt_of_le (others task mem) longer
  | register scope node =>
    cases stepped
    exact ⟨wellFormed.register lt node, others⟩
  | declare scope name kind =>
    cases stepped
    refine ⟨wellFormed.declare name kind, fun task mem => ?_⟩
    rw [nextScope, ScopeTree.length_declare]
    exact others task mem
  | refer scope name =>
    cases stepped
    exact ⟨wellFormed.refer lt name, others⟩

/-- **Every stage of a pass is sound.** -/
theorem sound_of_reaches {script : List Statement} {templates : List Expression} {m : Stage}
    (reached : Reaches step? (start script templates) m) : m.Sound := by
  induction reached with
  | refl => exact sound_start script templates
  | tail _ stepped ih => exact ih.step stepped

end Stage

end Resolution

end ReactiveMarkup
