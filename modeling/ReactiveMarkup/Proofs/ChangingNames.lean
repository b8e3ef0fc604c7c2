import ReactiveMarkup.Proofs.DueNotification
import ReactiveMarkup.Proofs.ReactiveAssignment
import ReactiveMarkup.Proofs.ScheduleOrder
import ReactiveMarkup.Proofs.ScopedWalk

/-!
# Names that change

The analysis finds the names that change in two ways: a walk looks at every mutation outside the
reactive declarations and keeps the names that belong to the root or to nobody, and each reactive
declaration reports its assignees. This module says by positions of the whole program what comes out
of it:

* outside the reactive declarations the result is exact (`tracksChanges_of_distinctIds`), and the
  walk shows each expression with the scope that the resolver used for it;
* inside them only the assignments that count are noted (`mem_willChange_iff_noted`), so a component
  may change a name without the analysis taking note of it (`unnoted_update_of_ticking`).
-/

namespace ReactiveMarkup

open Script (Expression Statement Node)
open Script.Node (Inside)

/-! ## Names of the root -/

namespace Script.Node

/-- The frames around a position are those of the functions and blocks around it. -/
theorem mem_frames_iff {x : Node} {p : List Nat} {frame : List String} :
    frame ∈ x.frames p ↔ ∃ q z, Inside p q ∧ x.at? q = some z ∧ z.frame? = some frame := by
  -- the frame of the node itself is the last one; the others lie around the rest of the position
  induction p generalizing x with
  | nil => simp [frames, not_inside_nil]
  | cons i rest ih =>
    rw [frames, List.mem_append]
    constructor
    · rintro (mem | own)
      · cases child : x.children[i]? with
        | none => simp [child] at mem
        | some c =>
          obtain ⟨q, z, inside, found, isFrame⟩ := ih.1 (by simpa [child] using mem)
          refine ⟨i :: q, z, inside_cons_cons.2 ⟨rfl, inside⟩, ?_, isFrame⟩
          rw [at?, child]
          exact found
      · exact ⟨[], x, inside_cons_nil i rest, rfl, by simpa using own⟩
    · rintro ⟨q, z, inside, found, isFrame⟩
      cases q with
      | nil =>
        cases found
        exact .inr (by simp [isFrame])
      | cons j q =>
        obtain ⟨rfl, within⟩ := inside_cons_cons.1 inside
        obtain ⟨c, child, found⟩ := Option.bind_eq_some_iff.1 found
        refine .inl ?_
        rw [child]
        exact ih.2 ⟨q, z, within, found, isFrame⟩

/-- Seen from a position, a name belongs to the root or is free if no function or block around the
position binds it. -/
theorem rootOrFree_iff_scopes {x : Node} {p : List Nat} {name : String} :
    x.RootOrFree p name ↔ ∀ q z, Inside p q → x.at? q = some z → z.id?.isSome = true →
      ¬ z.Binds name := by
  constructor
  · intro rootOrFree q z inside found scope binds
    obtain ⟨id, has⟩ := Option.isSome_iff_exists.1 scope
    have isFrame := Resolution.frame_of_scope has
    exact rootOrFree _ (mem_frames_iff.2 ⟨q, z, inside, found, isFrame⟩)
      ((mem_frame?_iff isFrame).2 binds)
  · intro unbound frame mem named
    obtain ⟨q, z, inside, found, isFrame⟩ := mem_frames_iff.1 mem
    cases has : z.id? with
    | none => simp [Resolution.frame?_eq_none has] at isFrame
    | some id => exact unbound q z inside found (by simp [has]) ((mem_frame?_iff isFrame).1 named)

/-- Seen from a position of a script, a name belongs to the root or is free if the top level is the
innermost scope that binds it or if none does. -/
theorem rootOrFree_iff {body : List Statement} {p : List Nat} (below : p ≠ []) {name : String} :
    (Node.script body).RootOrFree p name ↔
      (Node.script body).IsBinder p [] name ∨ (Node.script body).Unbound p name := by
  obtain ⟨i, rest, rfl⟩ := List.exists_cons_of_ne_nil below
  -- every binder below the top level opens a scope, and the top level opens none
  have inner : (Node.script body).RootOrFree (i :: rest) name ↔
      ∀ q z, q ≠ [] → Inside (i :: rest) q → (Node.script body).at? q = some z →
        ¬ z.Binds name := by
    rw [rootOrFree_iff_scopes]
    constructor
    · intro unbound q z deeper inside found binds
      exact unbound q z inside found (Option.isSome_iff_exists.2 (binds.exists_id found deeper))
        binds
    · intro unbound q z inside found scope
      refine unbound q z ?_ inside found
      rintro rfl
      cases found
      cases scope
  rw [inner]
  constructor
  · intro unbound
    by_cases top : (Node.script body).Binds name
    · refine .inl ⟨inside_cons_nil i rest, ⟨_, rfl, top⟩, fun q z inside inner found => ?_⟩
      exact unbound q z (fun same => not_inside_nil [] (same ▸ inner)) inside found
    · refine .inr fun q z inside found => ?_
      by_cases same : q = []
      · subst same
        cases found
        exact top
      · exact unbound q z same inside found
  · rintro (binder | unbound) q z deeper inside found
    · obtain ⟨j, q, rfl⟩ := List.exists_cons_of_ne_nil deeper
      exact binder.innermost _ z inside (inside_cons_nil j q) found
    · exact unbound q z inside found

end Script.Node

namespace ScopeTree

variable {script : List Statement} {templates : List Expression}

/-- Only the top level has the root scope. -/
theorem resolvedScopeWithin_eq_root_iff {q : List Nat} {z : Node} {name : String}
    (found : (program script templates).at? q = some z) (binds : z.Binds name) :
    rootScope = (program script templates).resolvedScopeWithin q ↔ q = [] := by
  constructor
  · intro root
    refine Classical.byContradiction fun deeper => ?_
    obtain ⟨id, has⟩ := binds.exists_id found deeper
    have nested := (settled_resolve found has).nested
    rw [← root, show (resolve script templates).shape[rootScope]? = _ from
      (ordered_resolve script templates).root] at nested
    simp at nested
  · rintro rfl
    rfl

/-- Seen from the scope that the resolver gives a position, a name belongs to the root or is free as
lexical scoping says. -/
theorem isRootOrFree_resolvedScope {p : List Nat} {y : Node}
    (found : (program script templates).at? p = some y) (below : p ≠ []) (name : String) :
    (resolve script templates).isRootOrFree ((program script templates).resolvedScope p) name =
        true ↔
      (program script templates).RootOrFree p name := by
  rw [isRootOrFree_iff, owner?_eq_none_iff found below, owner?_eq_some_iff found below, program,
    Node.rootOrFree_iff below, or_comm]
  refine or_congr_left ?_
  constructor
  · rintro ⟨q, binder, root⟩
    obtain ⟨z, found, binds⟩ := binder.binds
    obtain rfl := (resolvedScopeWithin_eq_root_iff found binds).1 root
    exact binder
  · intro binder
    exact ⟨[], binder, rfl⟩

end ScopeTree

/-! ## What the walk notes -/

theorem mem_handOver_recordMutation {tree : ScopeTree} {items : List (Expression × ScopeId)}
    {names : NameSet} {name : String} :
    name ∈ handOver (recordMutation tree) items names ↔
      name ∈ names ∨
        ∃ e k, (e, k) ∈ items ∧ name ∈ e.mutatedNames ∧ tree.isRootOrFree k name = true := by
  induction items generalizing names with
  | nil => simp [handOver]
  | cons item rest ih =>
    obtain ⟨e, k⟩ := item
    show name ∈ handOver _ rest (recordMutation tree e k names) ↔ _
    rw [ih, recordMutation, NameSet.mem_insertAll, List.mem_filter, or_comm (b := name ∈ names),
      or_assoc]
    refine or_congr_right ?_
    constructor
    · rintro (here | ⟨e', k', mem, noted⟩)
      · exact ⟨e, k, List.mem_cons_self, here⟩
      · exact ⟨e', k', List.mem_cons_of_mem _ mem, noted⟩
    · rintro ⟨e', k', mem, noted⟩
      rcases List.mem_cons.1 mem with same | mem
      · cases same
        exact .inl noted
      · exact .inr ⟨e', k', mem, noted⟩

/-! ## The program without its reactive declarations -/

namespace Script.Node

/-- Whether a node is a reactive declaration. -/
def isReactive : Node → Bool
  | .statement s => s.isReactive
  | _ => false

/-- Whether a position of a program lies in a reactive declaration. -/
def inReactive (root : Node) : List Nat → Bool
  | [] => false
  | i :: _ => root.children[i]?.any isReactive

/-- The expressions of a program outside its reactive declarations, in source order, each with what
a function says of its position. -/
def shownOutside (root : Node) (scope : List Nat → ScopeId) : List (Expression × ScopeId) :=
  root.shownAt (root.positions.filter fun p => !root.inReactive p) scope

theorem mem_shownOutside_iff {root : Node} {scope : List Nat → ScopeId} {e : Expression}
    {k : ScopeId} :
    (e, k) ∈ root.shownOutside scope ↔
      ∃ p, root.at? p = some (.expression e) ∧ root.inReactive p = false ∧ k = scope p := by
  rw [shownOutside, mem_shownAt_iff]
  constructor
  · rintro ⟨p, mem, found, same⟩
    exact ⟨p, found, by simpa using (List.mem_filter.1 mem).2, same⟩
  · rintro ⟨p, found, outside, same⟩
    refine ⟨p, List.mem_filter.2 ⟨mem_positions_iff.2 ⟨_, found⟩, ?_⟩, found, same⟩
    simp [outside]

/-- Below the top level, a program shows the expressions of its statements one after the other, with
the reactive declarations left out. -/
theorem shownOutside_scopeAt (t : ScopeTree) (body : List Statement) :
    (Node.script body).shownOutside ((Node.script body).scopeAt t rootScope) =
      ((Node.script body).children.filter fun c => !c.isReactive).flatMap (visits t rootScope) := by
  -- whether a position lies in a reactive declaration is decided by its first step
  have below : ∀ child ∈ (Node.script body).children.zipIdx,
      (((positions child.1).map (child.2 :: ·)).filter fun p =>
          !(Node.script body).inReactive p).filterMap
        (fun p => ((Node.script body).expressionAt? p).map
          (·, (Node.script body).scopeAt t rootScope p)) =
        if child.1.isReactive then [] else child.1.visits t rootScope := by
    rintro ⟨c, i⟩ mem
    have child : (Node.script body).children[i]? = some c := List.mem_zipIdx_iff_getElem?.1 mem
    have kept : ∀ p ∈ (positions c).map (i :: ·),
        (!(Node.script body).inReactive p) = !c.isReactive := by
      intro p mem
      obtain ⟨rest, -, rfl⟩ := List.mem_map.1 mem
      simp [inReactive, child]
    rw [List.filter_congr kept]
    cases c.isReactive with
    | true => simp
    | false =>
      simp only [Bool.not_false, List.filter_true, List.filterMap_map, Bool.false_eq_true,
        if_false]
      refine List.filterMap_congr fun p _ => ?_
      simp [expressionAt?, at?, child, scopeAt, innerScope, id?]
  -- statements may be left out before or after their positions are listed
  have left : ∀ cs : List Node,
      (cs.flatMap fun c => if c.isReactive then [] else c.visits t rootScope) =
        (cs.filter fun c => !c.isReactive).flatMap (visits t rootScope) := by
    intro cs
    induction cs with
    | nil => rfl
    | cons c rest ih => cases reactive : c.isReactive <;> simp [reactive, ih]
  unfold shownOutside shownAt
  rw [positions_eq, List.filter_cons_of_pos rfl, List.filterMap_cons_none rfl,
    List.filter_flatMap, List.filterMap_flatMap, List.flatMap_congr below, ← left]
  conv => rhs; rw [← List.zipIdx_map_fst 0 (Node.script body).children, List.flatMap_map]

end Script.Node

/-- What is left of a script, with the template expressions, shows what the program shows outside
its reactive declarations. -/
theorem visits_residue (t : ScopeTree) (script : List Statement) (templates : List Expression) :
    (program (extractReactive script).residue templates).visits t rootScope =
      (program script templates).shownOutside
        ((program script templates).scopeAt t rootScope) := by
  have children : (program (extractReactive script).residue templates).children =
      (program script templates).children.filter fun c => !c.isReactive := by
    have plain : templates.filter (fun e => !(Statement.expression e).isReactive) = templates :=
      List.filter_eq_self.2 fun _ _ => rfl
    simp only [program, Node.children, extractReactive, residue_eq, List.filter_map,
      List.filter_append, Function.comp_def, Node.isReactive, plain]
  rw [program, program, Node.shownOutside_scopeAt, Node.visits_eq, ← program, ← program, children]
  rfl

/-! ## The result of the analysis -/

/-- The whole program of a component: its script and its template expressions. -/
def Component.program (component : Component) : Node :=
  ReactiveMarkup.program component.script (Fragment.allExpressions component.html)

/-- What it means that the names that change are tracked outside the reactive declarations. -/
structure TracksChanges (component : Component) (marker : String) : Prop where
  /-- A name changes if a reactive declaration assigns it, or if a mutation outside of these writes
  to it and the innermost scope that binds it there is the top level, or none binds it. -/
  changes : ∀ name, name ∈ (component.analyze marker).analysis.willChange ↔
    (∃ d ∈ (component.analyze marker).analysis.declarations, name ∈ d.assignees) ∨
      ∃ p m, component.program.at? p = some (.expression m) ∧
        component.program.inReactive p = false ∧ name ∈ m.mutatedNames ∧
        (component.program.IsBinder p [] name ∨ component.program.Unbound p name)
  /-- A walk shows every visitor the expressions outside the reactive declarations in source order,
  each with the scope that the resolver used for it, and ends at the top level. -/
  shown : ∀ {σ : Type} (visit : Expression → ScopeId → σ → σ) (state : σ),
    walkExpressions (component.analyze marker).analysis.scopes visit
        (Fragment.allExpressions component.html)
        (walkStatements (component.analyze marker).analysis.scopes visit
          (component.analyze marker).component.script ⟨.start, state⟩) =
      ⟨.start, handOver visit
        (component.program.shownOutside component.program.resolvedScope) state⟩

section

variable {component : Component}

/-- The walk through a component shows each expression with the scope that the resolver used. -/
theorem visits_component (distinct : Client.DistinctIds component) :
    (program (extractReactive component.script).residue
        (Fragment.allExpressions component.html)).visits
      (ScopeTree.resolve component.script (Fragment.allExpressions component.html)) rootScope =
      component.program.shownOutside component.program.resolvedScope := by
  rw [visits_residue]
  refine Node.shownAt_congr fun p mem => ?_
  obtain ⟨y, found⟩ := Node.mem_positions_iff.1 (List.mem_filter.1 mem).1
  exact ScopeTree.scopeAt_program distinct found

/-- What the walk through a component adds to a set of names. -/
theorem mem_mutations_iff (distinct : Client.DistinctIds component) {names : NameSet}
    {name : String} :
    name ∈ mutations (ScopeTree.resolve component.script (Fragment.allExpressions component.html))
        (extractReactive component.script).residue (Fragment.allExpressions component.html) names ↔
      name ∈ names ∨
        ∃ p m, component.program.at? p = some (.expression m) ∧
          component.program.inReactive p = false ∧ name ∈ m.mutatedNames ∧
          component.program.RootOrFree p name := by
  have agree : ∀ {p m}, component.program.at? p = some (.expression m) →
      ((ScopeTree.resolve component.script
          (Fragment.allExpressions component.html)).isRootOrFree
            (component.program.resolvedScope p) name = true ↔
        component.program.RootOrFree p name) := by
    intro p m found
    refine ScopeTree.isRootOrFree_resolvedScope found ?_ name
    rintro rfl
    cases found
  rw [mutations, walk_program, visits_component distinct, mem_handOver_recordMutation]
  refine or_congr_right ?_
  constructor
  · rintro ⟨m, k, mem, named, owned⟩
    obtain ⟨p, found, outside, rfl⟩ := Node.mem_shownOutside_iff.1 mem
    exact ⟨p, m, found, outside, named, (agree found).1 owned⟩
  · rintro ⟨p, m, found, outside, named, rootOrFree⟩
    exact ⟨m, _, Node.mem_shownOutside_iff.2 ⟨p, found, outside, rfl⟩, named,
      (agree found).2 rootOrFree⟩

/-- A name that changes is assigned by a reactive declaration or written outside of these. -/
theorem mem_willChange_iff (distinct : Client.DistinctIds component) {marker name : String} :
    name ∈ (component.analyze marker).analysis.willChange ↔
      (∃ d ∈ (component.analyze marker).analysis.declarations, name ∈ d.assignees) ∨
        ∃ p m, component.program.at? p = some (.expression m) ∧
          component.program.inReactive p = false ∧ name ∈ m.mutatedNames ∧
          component.program.RootOrFree p name := by
  have reported : name ∈ NameSet.ofList ((extractReactive component.script).declarations.flatMap
        ReactiveDeclaration.assignees) ↔
      ∃ d ∈ (component.analyze marker).analysis.declarations, name ∈ d.assignees := by
    rw [NameSet.mem_ofList, List.mem_flatMap]
    exact exists_congr fun d => and_congr_left fun _ => (orderReactive_perm _).mem_iff.symm
  rw [← reported]
  exact mem_mutations_iff distinct

/-- **The names that change are tracked exactly** outside the reactive declarations. -/
theorem tracksChanges_of_distinctIds (distinct : Client.DistinctIds component) (marker : String) :
    TracksChanges component marker where
  changes name := by
    rw [mem_willChange_iff distinct]
    refine or_congr_right (exists_congr fun p => exists_congr fun m =>
      and_congr_right fun found => and_congr_right fun _ => and_congr_right fun _ => ?_)
    refine Node.rootOrFree_iff ?_
    rintro rfl
    cases found
  shown visit state := by
    refine (walk_program _ visit (extractReactive component.script).residue
      (Fragment.allExpressions component.html) state).trans ?_
    rw [Client.analyze_scopes, visits_component distinct]

end

/-- A component with a function that writes to `n` and to a name of its own, and with a reactive
declaration that assigns `total`. -/
def doubling : Component where
  html := [.expression (.identifier "n"), .expression (.identifier "total")]
  script :=
    [.declaration .lexical [⟨.identifier "n", some (.verbatim "0" [])⟩],
      .labeled reactiveLabel (.expression (.assignment "=" (.identifier "total")
        (.binary (.identifier "n") "*" (.verbatim "2" [])))),
      .function ⟨1, ⟨some "add", false, false, false, ["step"], ["step"]⟩,
        .block [.expression (.update "++" false (.identifier "step")),
          .expression (.assignment "+=" (.identifier "n") (.identifier "step"))]⟩]

theorem distinctIds_doubling : Client.DistinctIds doubling := by
  simp only [Client.DistinctIds, doubling, topLevel, Fragment.allExpressions,
    Fragment.expressions, Node.ids, Node.subnodes_eq, Node.children, Node.ofStatement,
    Node.ofFunction, Node.ofExpression, Script.Target.object?, List.map_cons, List.map_nil,
    List.append_nil, List.cons_append, List.nil_append, List.flatMap_cons, List.flatMap_nil,
    Option.toList_some, Option.toList_none]
  decide

theorem tracksChanges_doubling :
    Client.DistinctIds doubling ∧
      (doubling.analyze "on:").analysis.willChange.toList = ["n", "total"] ∧
      TracksChanges doubling "on:" :=
  ⟨distinctIds_doubling, by decide +kernel,
    tracksChanges_of_distinctIds distinctIds_doubling "on:"⟩

/-! ## Inside the reactive declarations -/

/-- Whether an expression is an assignment. -/
def Script.Expression.isAssignment : Expression → Bool
  | .assignment .. => true
  | _ => false

namespace Script.Node

theorem mem_assignedNames_iff {m : Expression} {name : String} :
    name ∈ (Node.expression m).assignedNames ↔
      m.isAssignment = true ∧ name ∈ m.mutatedNames := by
  cases m <;> simp [assignedNames, Expression.isAssignment, Expression.mutatedNames]

/-- Whether the analysis takes note that a mutation of a program writes to a name. Outside the
reactive declarations it does so if the name belongs to the root or to nobody; inside them it does
so for the assignments that count. -/
def Notes (root : Node) (p : List Nat) (m : Expression) (name : String) : Prop :=
  if root.inReactive p then m.isAssignment = true ∧ root.collected p = true
  else root.RootOrFree p name

end Script.Node

/-- A reactive declaration of a program stands in its script. -/
theorem children_program_reactive_iff {script : List Statement} {templates : List Expression}
    {i : Nat} {body : Statement} :
    (program script templates).children[i]? = some (.statement (.labeled reactiveLabel body)) ↔
      script[i]? = some (.labeled reactiveLabel body) := by
  rw [program, Node.children, List.getElem?_map]
  by_cases lt : i < script.length
  · rw [List.getElem?_append_left lt]
    cases script[i]? <;> simp
  · have none : script[i]? = none := List.getElem?_eq_none (Nat.le_of_not_lt lt)
    rw [List.getElem?_append_right (Nat.le_of_not_lt lt), List.getElem?_map, none]
    cases templates[i - script.length]? <;> simp

/-- The reactive declarations assign the targets of the assignments in them that count. -/
theorem exists_assignee_iff {component : Component} {marker name : String} :
    (∃ d ∈ (component.analyze marker).analysis.declarations, name ∈ d.assignees) ↔
      ∃ p m, component.program.at? p = some (.expression m) ∧
        component.program.inReactive p = true ∧ component.program.collected p = true ∧
        m.isAssignment = true ∧ name ∈ m.mutatedNames := by
  have listed : ∀ d, d ∈ (component.analyze marker).analysis.declarations ↔
      ∃ i body, component.program.children[i]? =
          some (.statement (.labeled reactiveLabel body)) ∧ d = .ofBody (0 + i) body := by
    intro d
    rw [show d ∈ (component.analyze marker).analysis.declarations ↔ _ from
      (orderReactive_perm _).mem_iff, extractReactive, mem_declarations_iff]
    simp only [Component.program, children_program_reactive_iff]
  constructor
  · rintro ⟨d, mem, assigned⟩
    obtain ⟨i, body, child, rfl⟩ := (listed d).1 mem
    obtain ⟨q, y, found, collected, named⟩ := mem_assignees_iff.1 assigned
    cases y with
    | expression m =>
      refine ⟨i :: 0 :: q, m, ?_, ?_, ?_, Node.mem_assignedNames_iff.1 named⟩
      · rw [Node.at?, child]
        exact found
      · rw [Node.inReactive, child]
        rfl
      · rw [Node.collected, child]
        exact collected
    | _ => cases named
  · rintro ⟨p, m, found, reactive, collected, named⟩
    cases p with
    | nil => cases reactive
    | cons i rest =>
      obtain ⟨c, child, found⟩ := Option.bind_eq_some_iff.1 found
      rw [Node.inReactive, child] at reactive
      rw [Node.collected, child] at collected
      cases c with
      | statement s =>
        obtain ⟨body, rfl⟩ := Script.Statement.isReactive_iff.1 reactive
        -- a labelled statement has one child
        cases rest with
        | nil => cases found
        | cons j q =>
          cases j with
          | zero =>
            exact ⟨_, (listed _).2 ⟨i, body, child, rfl⟩, mem_assignees_iff.2
              ⟨q, .expression m, found, collected, Node.mem_assignedNames_iff.2 named⟩⟩
          | succ j => cases found
      | _ => cases reactive

/-- **The names that change are those of the mutations that the analysis takes note of.** A mutation
in a reactive declaration is passed over if it is an update, or if the search for assignments does
not come to it. -/
theorem mem_willChange_iff_noted {component : Component} (distinct : Client.DistinctIds component)
    {marker name : String} :
    name ∈ (component.analyze marker).analysis.willChange ↔
      ∃ p m, component.program.at? p = some (.expression m) ∧ name ∈ m.mutatedNames ∧
        component.program.Notes p m name := by
  rw [mem_willChange_iff distinct, exists_assignee_iff]
  unfold Node.Notes
  constructor
  · rintro (⟨p, m, found, reactive, collected, assignment, named⟩ |
      ⟨p, m, found, outside, named, rootOrFree⟩)
    · exact ⟨p, m, found, named, by rw [if_pos reactive]; exact ⟨assignment, collected⟩⟩
    · exact ⟨p, m, found, named, by rw [if_neg (by simp [outside])]; exact rootOrFree⟩
  · rintro ⟨p, m, found, named, noted⟩
    split at noted
    · rename_i reactive
      exact .inl ⟨p, m, found, reactive, noted.2, noted.1, named⟩
    · rename_i outside
      exact .inr ⟨p, m, found, by simpa using outside, named, noted⟩

/-- The assignment in the reactive declaration is noted. -/
theorem noted_total_of_doubling :
    Client.DistinctIds doubling ∧ "total" ∈ (doubling.analyze "on:").analysis.willChange :=
  ⟨distinctIds_doubling, (mem_willChange_iff_noted distinctIds_doubling).2
    ⟨[1, 0, 0], _, rfl, List.mem_singleton.2 rfl, rfl, rfl⟩⟩

/-- A component that shows `n`, with a reactive declaration that counts it up. -/
def ticking : Component where
  html := [.expression (.identifier "n")]
  script :=
    [.declaration .lexical [⟨.identifier "n", some (.verbatim "0" [])⟩],
      .labeled reactiveLabel (.expression (.update "++" false (.identifier "n")))]

/-- The update writes to a name of the root, and the analysis says that nothing changes. -/
theorem unnoted_update_of_ticking :
    ticking.program.at? [1, 0, 0] = some (.expression (.update "++" false (.identifier "n"))) ∧
      "n" ∈ (Expression.update "++" false (.identifier "n")).mutatedNames ∧
      ticking.program.RootOrFree [1, 0, 0] "n" ∧
      "n" ∉ (ticking.analyze "on:").analysis.willChange :=
  ⟨rfl, by decide, by decide +kernel, by decide +kernel⟩

end ReactiveMarkup
