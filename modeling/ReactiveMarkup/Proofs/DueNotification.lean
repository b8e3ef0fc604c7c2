import ReactiveMarkup.Proofs.NotifiedPosition

/-!
# Notifications that are due

Which names a mutation must notify is said here by lexical scoping alone: the names of its target
that something reads and that no function or block around the mutation binds
(`Node.dueNames`). For the trees of a client module these are the names that the traversal finds
through the scope stack and the node map (`Rewriting.dueAt_eq`).
-/

namespace ReactiveMarkup

open Script (Expression Statement Node)

/-- The names that the node at a position must notify, in the order of its target. -/
def Script.Node.dueNames (invalidated : NameSet) (root : Node) (p : List Nat) : List String :=
  ((root.at? p).map Node.mutatedNames).getD [] |>.filter fun name =>
    name ∈ invalidated ∧ root.RootOrFree p name

namespace Client

open Script.Node (Inside counterpart?)

/-- The trees of a component that a client module holds, each with the form that it has there:
statements of the script and template expressions. -/
inductive Rewriting (component : Component) (marker : String) : Node → Node → Prop
  | script {body : List Statement} (part : ∀ s ∈ body, s ∈ component.script) :
    Rewriting component marker (.script body)
      (.script (notifyScript (component.analyze marker).analysis body))
  | template {e : Expression} (mem : e ∈ Fragment.allExpressions component.html) :
    Rewriting component marker (.expression e)
      (.expression (notifyTemplate (component.analyze marker).analysis e))

/-- Whether the functions and blocks of a component carry distinct ids. -/
def DistinctIds (component : Component) : Prop :=
  ((topLevel component.script (Fragment.allExpressions component.html)).flatMap Node.ids).Nodup

theorem analyze_scopes (component : Component) (marker : String) :
    (component.analyze marker).analysis.scopes =
      ScopeTree.resolve component.script (Fragment.allExpressions component.html) := rfl

theorem residue_part (index : Nat) (script : List Statement) :
    ∀ s ∈ (extractFrom index script).residue, s ∈ script := by
  induction script generalizing index with
  | nil => simp [extractFrom]
  | cons first rest ih =>
    intro s mem
    unfold extractFrom at mem
    have others : s ∈ (extractFrom (index + 1) rest).residue → s ∈ first :: rest :=
      fun mem => List.mem_cons_of_mem _ (ih _ s mem)
    split at mem
    · split at mem
      · exact others mem
      · rcases List.mem_cons.1 mem with rfl | mem
        · exact List.mem_cons_self
        · exact others mem
    · rcases List.mem_cons.1 mem with rfl | mem
      · exact List.mem_cons_self
      · exact others mem

namespace Rewriting

variable {component : Component} {marker : String} {root rewritten : Node}

/-- The script without its reactive declarations is one of the trees. -/
theorem residue (component : Component) (marker : String) :
    Rewriting component marker (.script (component.analyze marker).component.script)
      (.script (notifyScript (component.analyze marker).analysis
        (component.analyze marker).component.script)) :=
  .script (residue_part 0 component.script)

theorem rewritten_eq (h : Rewriting component marker root rewritten) :
    rewritten = notifyNode (component.analyze marker).analysis.scopes
      (component.analyze marker).analysis.invalidated .start root := by
  cases h with
  | script part => rfl
  | template mem => rfl

/-- Seen from a position of a tree, the resolver and lexical scoping agree. -/
theorem isRootOrFree (h : Rewriting component marker root rewritten)
    (distinct : DistinctIds component) {p : List Nat} {y : Node} (found : root.at? p = some y)
    (mutation : y.isMutation) (name : String) :
    (component.analyze marker).analysis.scopes.isRootOrFree
        (root.scopeAt (component.analyze marker).analysis.scopes rootScope p) name = true ↔
      root.RootOrFree p name := by
  cases h with
  | template mem =>
    refine ScopeTree.isRootOrFree_resolve distinct ?_ found name
    exact List.mem_append_right _ (List.mem_map_of_mem mem)
  | @script body part =>
    cases p with
    | nil =>
      cases found
      simp [Node.isMutation] at mutation
    | cons i rest =>
      obtain ⟨c, child, found⟩ := Option.bind_eq_some_iff.1 found
      obtain ⟨s, mem, rfl⟩ := List.mem_map.1 (List.mem_of_getElem? child)
      have top : .statement s ∈
          topLevel component.script (Fragment.allExpressions component.html) :=
        List.mem_append_left _ (List.mem_map_of_mem (part s mem))
      -- the script itself opens no scope
      have agree := ScopeTree.isRootOrFree_resolve distinct top found name
      simpa [Node.scopeAt, Node.RootOrFree, Node.frames, child, Node.innerScope, Node.id?,
        Node.frame?, analyze_scopes] using agree

/-- The traversal finds the names that are due. -/
theorem dueAt_eq (h : Rewriting component marker root rewritten)
    (distinct : DistinctIds component) (p : List Nat) :
    dueAt (component.analyze marker).analysis.scopes (component.analyze marker).analysis.invalidated
        rootScope root p =
      root.dueNames (component.analyze marker).analysis.invalidated p := by
  unfold dueAt Node.dueNames
  cases found : root.at? p with
  | none => rfl
  | some y =>
    cases mutation : y.isMutation with
    | false => simp [dueIn, Node.mutatedNames_eq_nil mutation]
    | true =>
      refine List.filter_congr fun name _ => ?_
      have agree := h.isRootOrFree distinct found mutation name
      rw [Bool.eq_iff_iff]
      simp [agree]

/-- A mutation that is reached is followed by a notification of the names that are due. -/
theorem counterpart?_of_due (h : Rewriting component marker root rewritten) {p : List Nat}
    {m : Expression} (found : root.at? p = some (.expression m))
    (reached : Reached (component.analyze marker).analysis.scopes
      (component.analyze marker).analysis.invalidated rootScope root p)
    (due : dueAt (component.analyze marker).analysis.scopes
      (component.analyze marker).analysis.invalidated rootScope root p ≠ []) :
    counterpart? root rewritten p =
      some (.expression (notified m (dueAt (component.analyze marker).analysis.scopes
        (component.analyze marker).analysis.invalidated rootScope root p))) := by
  have same : ∀ tree invalidated, dueAt tree invalidated rootScope root p =
      dueIn tree invalidated (.expression m) (ScopeStack.start.withinAt tree root p).current := by
    intro tree invalidated
    rw [dueAt, found, ScopeStack.current_withinAt]
    rfl
  rw [same] at due ⊢
  obtain ⟨m', eq, -, notify_eq⟩ := notifyNode_of_due _ _ _ due
  cases eq
  have place : counterpart? root (notifyNode _ _ .start root) p = _ :=
    counterpart?_of_reached found reached
  rw [h.rewritten_eq, place, notify_eq]

/-- What is not reached stays as it is. -/
theorem counterpart?_of_missed (h : Rewriting component marker root rewritten) {p : List Nat}
    (missed : ¬ Reached (component.analyze marker).analysis.scopes
      (component.analyze marker).analysis.invalidated rootScope root p) :
    counterpart? root rewritten p = root.at? p := by
  rw [h.rewritten_eq]
  exact counterpart?_of_not_reached missed

end Rewriting

end Client

end ReactiveMarkup
