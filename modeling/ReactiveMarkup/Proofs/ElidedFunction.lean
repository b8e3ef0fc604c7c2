import ReactiveMarkup.Proofs.ReachableNames
import ReactiveMarkup.Proofs.ReadNames

/-!
# Functions that a server module leaves out

A binding whose initial value is a function is left out of a server module when nothing that runs
while the component renders is seen to refer to it. What runs then is told here by trees
(`Renders`): the statements and initial values of the script that stay, the rendered template
expressions, the reactive declarations, and the functions of the top level that one of these trees
is seen to refer to.

The elision is as good as the reference queries are. A binding is left out exactly if every
occurrence of its names in these trees is one that the queries overlook
(`elided_iff_overlooked`): the target of an assignment, what stands in the target of an update
beside the names that it writes to, and what stands in a function or statement that declares the
name anywhere. Some of these do refer to the top level, and then the module refers to a binding that
is gone (`making_refers_to_elided`).
-/

namespace ReactiveMarkup

open Script (Expression Function Statement Declarator Node)
open Script.Node (Inside)

namespace Script.Node

/-- Why an occurrence of a name is not seen. -/
inductive Overlooks (x : Node) (p : List Nat) (name : String) : Prop
  /-- It is the target of an assignment. -/
  | assigned {operator : String} {target : Target} {right : Expression}
      (found : x.at? p = some (.expression (.assignment operator target right)))
  /-- It stands in the target of an update that does not write to the name. -/
  | updated {q : List Nat} {operator : String} {leading : Bool} {target : Target}
      (inside : Inside p q)
      (found : x.at? q = some (.expression (.update operator leading target)))
      (other : name ∉ target.names)
  /-- It stands in a function that takes the name for its own. -/
  | localized {q : List Nat} {f : Function} (inside : Inside p q)
      (found : x.at? q = some (.function f)) (own : f.Localizes name)
  /-- The whole piece declares the name. -/
  | declared (declares : x.Declares name)

variable {x y : Node} {p : List Nat} {name : String}

theorem mem_ownReferences_of_ownReads (mem : name ∈ x.ownReads) : name ∈ x.ownReferences := by
  unfold ownReads at mem
  split at mem
  · cases mem
  · exact mem

theorem Sees.not_overlooks (sees : x.Sees p name) : ¬ x.Overlooks p name := by
  obtain ⟨⟨⟨y, here, mem⟩, passed⟩, undeclared⟩ := sees
  intro overlooks
  cases overlooks with
  | assigned found =>
    cases here.symm.trans found
    cases mem
  | updated inside found other => exact other (passed _ _ inside found)
  | localized inside found own => exact passed _ _ inside found own
  | declared declares => exact undeclared declares

/-- An occurrence that is not seen is overlooked for one of the reasons. -/
theorem overlooks_of_not_sees (found : x.at? p = some y) (mem : name ∈ y.ownReferences)
    (unseen : ¬ x.Sees p name) : x.Overlooks p name := by
  refine Classical.byContradiction fun none => unseen ⟨⟨⟨y, found, ?_⟩, ?_⟩, ?_⟩
  · unfold ownReads
    split
    · exact absurd (.assigned found) none
    · exact mem
  · intro q z inside found
    unfold Passes
    split
    · exact fun own => none (.localized inside found own)
    · exact Classical.byContradiction fun other => none (.updated inside found other)
    · trivial
  · exact fun declares => none (.declared declares)

end Script.Node

namespace Server

/-- Whether a binding stands at the top level of a script. -/
def Declared (script : List Statement) (d : Declarator) : Prop :=
  ∃ kind items, Statement.declaration kind items ∈ script ∧ d ∈ items

/-- Whether a statement runs as a whole where it stands: declarations run by their initial values,
and functions when they are called. -/
def runsWhole : Statement → Bool
  | .declaration _ _ => false
  | .function _ => false
  | _ => true

/-- The trees that run when a component with the given script renders. -/
inductive Renders (component : Component) (marker : String) (script : List Statement) :
    Node → Prop
  | statement {s : Statement} (mem : s ∈ script) (whole : runsWhole s = true) :
    Renders component marker script (.statement s)
  | initial {d : Declarator} {init : Expression} (declared : Declared script d)
      (has : d.init = some init) (plain : init.isFunction = false) :
    Renders component marker script (.expression init)
  | template {e : Expression} (mem : e ∈ Fragment.allRendered marker component.html) :
    Renders component marker script (.expression e)
  | reactive {d : ReactiveDeclaration}
      (mem : d ∈ (component.analyze marker).analysis.declarations) :
    Renders component marker script (.statement d.body)
  | function {f : Function} {x : Node} {p : List Nat} {name : String}
      (mem : .function f ∈ script) (named : f.signature.name = some name)
      (running : Renders component marker script x) (sees : x.Sees p name) :
    Renders component marker script (.function f)
  | binding {d : Declarator} {init : Expression} {x : Node} {p : List Nat} {name : String}
      (declared : Declared script d) (has : d.init = some init)
      (isFunction : init.isFunction = true) (named : name ∈ d.pattern.names)
      (running : Renders component marker script x) (sees : x.Sees p name) :
    Renders component marker script (.expression init)

section

variable {component : Component} {marker : String} {script : List Statement} {name : String}

/-! ## What is read at once -/

theorem mem_eager_ofDeclarator {d : Declarator} :
    name ∈ (TopLevel.ofDeclarator d).eager ↔
      ∃ init, d.init = some init ∧ init.isFunction = false ∧ name ∈ init.references := by
  obtain ⟨pattern, init⟩ := d
  cases init with
  | none => simp [TopLevel.ofDeclarator, TopLevel.empty]
  | some init => cases function : init.isFunction <;> simp [TopLevel.ofDeclarator, function]

theorem mem_functions_ofDeclarator {d : Declarator} {f : String × List String} :
    f ∈ (TopLevel.ofDeclarator d).functions ↔
      ∃ init, d.init = some init ∧ init.isFunction = true ∧ f.1 ∈ d.pattern.names ∧
        f.2 = init.references := by
  obtain ⟨pattern, init⟩ := d
  obtain ⟨g, reads⟩ := f
  cases init with
  | none => simp [TopLevel.ofDeclarator, TopLevel.empty]
  | some init =>
    cases function : init.isFunction with
    | false => simp [TopLevel.ofDeclarator, function]
    | true =>
      simp only [TopLevel.ofDeclarator, function, if_true, List.mem_map, Prod.mk.injEq]
      constructor
      · rintro ⟨name, named, rfl, rfl⟩
        exact ⟨init, rfl, function, named, rfl⟩
      · rintro ⟨_, has, -, named, rfl⟩
        cases has
        exact ⟨g, named, rfl, rfl⟩

/-- The top level reads at once what its statements read that run as a whole, and what its initial
values read that are no functions. -/
theorem mem_eager_iff :
    name ∈ (TopLevel.ofScript script).eager ↔
      (∃ s ∈ script, runsWhole s = true ∧ name ∈ s.references) ∨
        ∃ d init, Declared script d ∧ d.init = some init ∧ init.isFunction = false ∧
          name ∈ init.references := by
  rw [TopLevel.mem_eager_ofScript]
  constructor
  · rintro ⟨s, mem, read⟩
    -- only declarations come apart into declarators, and functions read nothing at once
    cases s with
    | declaration kind items =>
      rw [TopLevel.ofStatement_declaration] at read
      obtain ⟨d, item, read⟩ := List.mem_flatMap.1 read
      obtain ⟨init, has, plain, read⟩ := mem_eager_ofDeclarator.1 read
      exact .inr ⟨d, init, ⟨kind, items, mem, item⟩, has, plain, read⟩
    | function f => cases read
    | _ => exact .inl ⟨_, mem, rfl, read⟩
  · rintro (⟨s, mem, whole, read⟩ | ⟨d, init, ⟨kind, items, mem, item⟩, has, plain, read⟩)
    · refine ⟨s, mem, ?_⟩
      cases s with
      | declaration kind items => cases whole
      | function f => cases whole
      | _ => exact read
    · refine ⟨_, mem, ?_⟩
      rw [TopLevel.ofStatement_declaration]
      exact List.mem_flatMap.2 ⟨d, item, mem_eager_ofDeclarator.2 ⟨init, has, plain, read⟩⟩

/-- The functions of the top level are its function statements and its bindings with a function. -/
theorem mem_functions_iff {f : String × List String} :
    f ∈ (TopLevel.ofScript script).functions ↔
      (∃ g, .function g ∈ script ∧ g.signature.name = some f.1 ∧ f.2 = g.references) ∨
        ∃ d init, Declared script d ∧ d.init = some init ∧ init.isFunction = true ∧
          f.1 ∈ d.pattern.names ∧ f.2 = init.references := by
  rw [TopLevel.mem_functions_ofScript]
  constructor
  · rintro ⟨s, mem, entry⟩
    cases s with
    | declaration kind items =>
      rw [TopLevel.ofStatement_declaration] at entry
      obtain ⟨d, item, entry⟩ := List.mem_flatMap.1 entry
      obtain ⟨init, has, function, named, reads⟩ := mem_functions_ofDeclarator.1 entry
      exact .inr ⟨d, init, ⟨kind, items, mem, item⟩, has, function, named, reads⟩
    | function g =>
      obtain ⟨name, named, rfl⟩ := List.mem_map.1 entry
      exact .inl ⟨g, mem, Option.mem_toList.1 named, rfl⟩
    | _ => cases entry
  · rintro (⟨g, mem, named, reads⟩ |
      ⟨d, init, ⟨kind, items, mem, item⟩, has, function, named, reads⟩)
    · exact ⟨_, mem, List.mem_map.2 ⟨f.1, Option.mem_toList.2 named, by rw [← reads]⟩⟩
    · refine ⟨_, mem, ?_⟩
      rw [TopLevel.ofStatement_declaration]
      exact List.mem_flatMap.2
        ⟨d, item, mem_functions_ofDeclarator.2 ⟨init, has, function, named, reads⟩⟩

theorem mem_readAtOnce_iff :
    name ∈ readAtOnce script (component.analyze marker).analysis ↔
      name ∈ (TopLevel.ofScript script).eager ∨
        (∃ e ∈ Fragment.allRendered marker component.html, name ∈ e.references) ∨
        ∃ d ∈ (component.analyze marker).analysis.declarations, name ∈ d.body.references := by
  have template : name ∈ (component.analyze marker).analysis.usedInTemplate.toList ↔
      ∃ e ∈ Fragment.allRendered marker component.html, name ∈ e.references := by
    have used := @NameSet.mem_ofList
      ((Fragment.allRendered marker component.html).flatMap Expression.references) name
    exact used.trans List.mem_flatMap
  rw [readAtOnce, NameSet.mem_insertAll, NameSet.mem_insertAll, NameSet.mem_ofList, template,
    List.mem_flatMap, or_comm, or_comm (b := name ∈ (TopLevel.ofScript script).eager), or_assoc]

/-! ## What is needed -/

/-- What a tree that runs is seen to refer to can be reached. -/
theorem Renders.reaches {x : Node} (running : Renders component marker script x) {p : List Nat}
    (sees : x.Sees p name) :
    Reaches (TopLevel.ofScript script).functions
      (readAtOnce script (component.analyze marker).analysis) name := by
  induction running generalizing p name with
  | statement mem whole =>
    have read := Script.Statement.mem_references_iff.2 ⟨p, sees⟩
    exact .start (mem_readAtOnce_iff.2 (.inl (mem_eager_iff.2 (.inl ⟨_, mem, whole, read⟩))))
  | initial declared has plain =>
    have read := Script.Expression.mem_references_iff.2 ⟨p, sees⟩
    exact .start (mem_readAtOnce_iff.2
      (.inl (mem_eager_iff.2 (.inr ⟨_, _, declared, has, plain, read⟩))))
  | template mem =>
    have read := Script.Expression.mem_references_iff.2 ⟨p, sees⟩
    exact .start (mem_readAtOnce_iff.2 (.inr (.inl ⟨_, mem, read⟩)))
  | reactive mem =>
    have read := Script.Statement.mem_references_iff.2 ⟨p, sees⟩
    exact .start (mem_readAtOnce_iff.2 (.inr (.inr ⟨_, mem, read⟩)))
  -- a function runs because a tree that runs refers to it: one more step of reaching
  | @function f _ _ callee mem named _ called ih =>
    have read := Script.Function.mem_references_iff.2 ⟨p, sees⟩
    have entry : (callee, f.references) ∈ (TopLevel.ofScript script).functions :=
      mem_functions_iff.2 (.inl ⟨f, mem, named, rfl⟩)
    exact .through entry (ih called) read
  | @binding d init _ _ callee declared has function named _ called ih =>
    have read := Script.Expression.mem_references_iff.2 ⟨p, sees⟩
    have entry : (callee, init.references) ∈ (TopLevel.ofScript script).functions :=
      mem_functions_iff.2 (.inr ⟨d, init, declared, has, function, named, rfl⟩)
    exact .through entry (ih called) read

/-- What can be reached is seen in a tree that runs. -/
theorem Reaches.exists_sees
    (reaches : Reaches (TopLevel.ofScript script).functions
      (readAtOnce script (component.analyze marker).analysis) name) :
    ∃ x p, Renders component marker script x ∧ x.Sees p name := by
  induction reaches with
  | start mem =>
    rcases mem_readAtOnce_iff.1 mem with eager | ⟨e, mem, read⟩ | ⟨d, mem, read⟩
    · rcases mem_eager_iff.1 eager with
        ⟨s, mem, whole, read⟩ | ⟨d, init, declared, has, plain, read⟩
      · obtain ⟨p, sees⟩ := Script.Statement.mem_references_iff.1 read
        exact ⟨_, p, .statement mem whole, sees⟩
      · obtain ⟨p, sees⟩ := Script.Expression.mem_references_iff.1 read
        exact ⟨_, p, .initial declared has plain, sees⟩
    · obtain ⟨p, sees⟩ := Script.Expression.mem_references_iff.1 read
      exact ⟨_, p, .template mem, sees⟩
    · obtain ⟨p, sees⟩ := Script.Statement.mem_references_iff.1 read
      exact ⟨_, p, .reactive mem, sees⟩
  | through entry _ read ih =>
    obtain ⟨x, q, running, called⟩ := ih
    rcases mem_functions_iff.1 entry with
      ⟨g, mem, named, reads⟩ | ⟨d, init, declared, has, function, named, reads⟩
    · obtain ⟨p, sees⟩ := Script.Function.mem_references_iff.1 (reads ▸ read)
      exact ⟨_, p, .function mem named running called, sees⟩
    · obtain ⟨p, sees⟩ := Script.Expression.mem_references_iff.1 (reads ▸ read)
      exact ⟨_, p, .binding declared has function named running called, sees⟩

/-- A name is needed if a tree that runs is seen to refer to it. -/
theorem needed_iff :
    name ∈ reachableNames script (component.analyze marker).analysis ↔
      ∃ x p, Renders component marker script x ∧ x.Sees p name := by
  rw [mem_reachableNames_iff]
  constructor
  · exact Reaches.exists_sees
  · rintro ⟨x, p, running, sees⟩
    exact running.reaches sees

/-! ## What stays -/

theorem elideStatement_declaration (needed : NameSet) (kind : Script.DeclarationKind)
    (items : List Declarator) :
    elideStatement needed (.declaration kind items) =
      if items.filter (isKept needed) = [] then none
      else some (.declaration kind (items.filter (isKept needed))) := by
  rw [elideStatement]
  cases items.filter (isKept needed) <;> simp

theorem elideStatement_eq_some_iff {needed : NameSet} {s : Statement}
    {kind : Script.DeclarationKind} {items : List Declarator} :
    elideStatement needed s = some (.declaration kind items) ↔
      items ≠ [] ∧ ∃ all, s = .declaration kind all ∧ items = all.filter (isKept needed) := by
  cases s with
  | declaration kind' all =>
    rw [elideStatement_declaration]
    constructor
    · intro kept
      split at kept
      · cases kept
      · rename_i some
        cases kept
        exact ⟨some, all, rfl, rfl⟩
    · rintro ⟨some, _, same, rfl⟩
      cases same
      rw [if_neg some]
  | _ => simp [elideStatement]

/-- Statements other than declarations all stay. -/
theorem mem_elideUnused_iff {analysis : Analysis} {s : Statement}
    (other : ∀ kind items, s ≠ .declaration kind items) :
    s ∈ elideUnused script analysis ↔ s ∈ script := by
  rw [elideUnused, List.mem_filterMap]
  constructor
  · rintro ⟨s', mem, kept⟩
    cases s' with
    | declaration kind items =>
      rw [elideStatement_declaration] at kept
      split at kept
      · cases kept
      · exact absurd (Option.some.inj kept).symm (other kind _)
    | _ =>
      cases kept
      exact mem
  · intro mem
    refine ⟨s, mem, ?_⟩
    cases s with
    | declaration kind items => exact absurd rfl (other kind items)
    | _ => rfl

/-- The bindings that stay are those that are kept. -/
theorem declared_elideUnused_iff {analysis : Analysis} {d : Declarator} :
    Declared (elideUnused script analysis) d ↔
      Declared script d ∧ isKept (reachableNames script analysis) d = true := by
  constructor
  · rintro ⟨kind, items, mem, item⟩
    obtain ⟨s, source, kept⟩ := List.mem_filterMap.1 mem
    obtain ⟨-, all, rfl, rfl⟩ := elideStatement_eq_some_iff.1 kept
    obtain ⟨item, kept⟩ := List.mem_filter.1 item
    exact ⟨⟨kind, all, source, item⟩, kept⟩
  · rintro ⟨⟨kind, all, mem, item⟩, kept⟩
    have stays := List.mem_filter.2 ⟨item, kept⟩
    exact ⟨kind, _, List.mem_filterMap.2 ⟨_, mem,
      elideStatement_eq_some_iff.2 ⟨List.ne_nil_of_mem stays, all, rfl, rfl⟩⟩, stays⟩

/-- A binding without a function is kept, and one with a function if one of its names is needed. -/
theorem isKept_iff {needed : NameSet} {d : Declarator} :
    isKept needed d = true ↔
      d.init.any Expression.isFunction = false ∨ ∃ name ∈ d.pattern.names, name ∈ needed := by
  simp [isKept]

theorem ne_declaration_of_runsWhole {s : Statement} (whole : runsWhole s = true) :
    ∀ kind items, s ≠ .declaration kind items := by
  rintro kind items rfl
  cases whole

/-- The trees that run are the same with and without the bindings that are left out. -/
theorem renders_elideUnused_iff {x : Node} :
    Renders component marker (elideUnused script (component.analyze marker).analysis) x ↔
      Renders component marker script x := by
  constructor
  · intro running
    induction running with
    | statement mem whole =>
      exact .statement ((mem_elideUnused_iff (ne_declaration_of_runsWhole whole)).1 mem) whole
    | initial declared has plain => exact .initial (declared_elideUnused_iff.1 declared).1 has plain
    | template mem => exact .template mem
    | reactive mem => exact .reactive mem
    | function mem named _ sees ih =>
      exact .function ((mem_elideUnused_iff (by simp)).1 mem) named ih sees
    | binding declared has function named _ sees ih =>
      exact .binding (declared_elideUnused_iff.1 declared).1 has function named ih sees
  · intro running
    induction running with
    | statement mem whole =>
      exact .statement ((mem_elideUnused_iff (ne_declaration_of_runsWhole whole)).2 mem) whole
    | initial declared has plain =>
      refine .initial (declared_elideUnused_iff.2 ⟨declared, isKept_iff.2 (.inl ?_)⟩) has plain
      rw [has]
      exact plain
    | template mem => exact .template mem
    | reactive mem => exact .reactive mem
    | function mem named _ sees ih =>
      exact .function ((mem_elideUnused_iff (by simp)).2 mem) named ih sees
    | binding declared has function named running sees ih =>
      -- the tree that refers to the binding runs, so the binding is needed
      have kept := isKept_iff.2 (.inr ⟨_, named, needed_iff.2 ⟨_, _, running, sees⟩⟩)
      exact .binding (declared_elideUnused_iff.2 ⟨declared, kept⟩) has function named ih sees

/-- **Which functions are left out.** A binding with a function is left out of a server module
exactly if every occurrence of its names in a tree that runs is overlooked. -/
theorem elided_iff_overlooked {d : Declarator}
    (declared : Declared (component.analyze marker).component.script d)
    (function : d.init.any Expression.isFunction = true) :
    ¬ Declared (elideUnused (component.analyze marker).component.script
        (component.analyze marker).analysis) d ↔
      ∀ name ∈ d.pattern.names, ∀ x p y,
        Renders component marker (elideUnused (component.analyze marker).component.script
          (component.analyze marker).analysis) x →
        x.at? p = some y → name ∈ y.ownReferences → x.Overlooks p name := by
  simp only [renders_elideUnused_iff]
  -- what runs in the script that is left is what runs in the whole script
  have kept : Declared (elideUnused (component.analyze marker).component.script
        (component.analyze marker).analysis) d ↔
      ∃ name ∈ d.pattern.names, ∃ x p,
        Renders component marker (component.analyze marker).component.script x ∧
          x.Sees p name := by
    rw [declared_elideUnused_iff, and_iff_right declared, isKept_iff, function]
    simp only [Bool.true_eq_false, false_or, needed_iff]
  rw [kept]
  constructor
  · intro unseen name named x p y running found mem
    exact Node.overlooks_of_not_sees found mem fun sees =>
      unseen ⟨name, named, x, p, running, sees⟩
  · rintro overlooked ⟨name, named, x, p, running, sees⟩
    obtain ⟨y, found, mem⟩ := sees.reads.here
    exact sees.not_overlooks
      (overlooked name named x p y running found (Node.mem_ownReferences_of_ownReads mem))

end

/-- The binding of a function `make` that gives a new object. -/
def maker : Declarator :=
  ⟨.identifier "make", some (.function ⟨0, ⟨none, true, false, false, [], []⟩,
    .expression (.parenthesized (.verbatim "{ n: 0 }" []))⟩)⟩

/-- A statement that calls `make` and counts up a member of the object. -/
def countUp : Statement :=
  .expression (.update "++" false (.member (.call (.identifier "make") [] false) "n"))

/-- A component with both. -/
def making : Component where
  html := [.element "p" [] [.text "hi"] 0]
  script := [.declaration .constant [maker], countUp]

/-- Only the statement stays. -/
theorem elideUnused_making :
    elideUnused (making.analyze "on:").component.script (making.analyze "on:").analysis =
      [countUp] := rfl

theorem not_declared_maker :
    ¬ Declared (elideUnused (making.analyze "on:").component.script
      (making.analyze "on:").analysis) maker := by
  rw [elideUnused_making]
  rintro ⟨kind, items, mem, -⟩
  simp [countUp] at mem

theorem overlooked_of_making :
    Declared (making.analyze "on:").component.script maker ∧
      maker.init.any Expression.isFunction = true ∧
      ∀ name ∈ maker.pattern.names, ∀ x p y,
        Renders making "on:" (elideUnused (making.analyze "on:").component.script
          (making.analyze "on:").analysis) x →
        x.at? p = some y → name ∈ y.ownReferences → x.Overlooks p name :=
  have declared : Declared (making.analyze "on:").component.script maker :=
    ⟨.constant, [maker], List.mem_cons_self, List.mem_singleton.2 rfl⟩
  ⟨declared, rfl, (elided_iff_overlooked declared rfl).1 not_declared_maker⟩

/-- The function is left out, and the statement that stays runs and calls it: in the program, `make`
belongs to the top level there. -/
theorem making_refers_to_elided :
    ¬ Declared (elideUnused (making.analyze "on:").component.script
        (making.analyze "on:").analysis) maker ∧
      Renders making "on:" (elideUnused (making.analyze "on:").component.script
        (making.analyze "on:").analysis) (.statement countUp) ∧
      (Node.statement countUp).at? [0, 0, 0] = some (.expression (.identifier "make")) ∧
      (program making.script (Fragment.allExpressions making.html)).at? [1, 0, 0, 0] =
        some (.expression (.identifier "make")) ∧
      (making.analyze "on:").analysis.scopes.owner?
          ((program making.script (Fragment.allExpressions making.html)).resolvedScope
            [1, 0, 0, 0]) "make" =
        some rootScope := by
  refine ⟨not_declared_maker, .statement ?_ rfl, rfl, rfl, by decide +kernel⟩
  rw [elideUnused_making]
  exact List.mem_singleton.2 rfl

end Server

end ReactiveMarkup
