import ReactiveMarkup.Proofs.ChangingNames
import ReactiveMarkup.Proofs.ElidedFunction

/-!
# References that are read and references that are recorded

The names that an expression reads are collected in one pass (`Expression.references`), and the
resolver records in another pass from which scope each name is referred to
(`recordedReferences`). The two passes keep locals apart in different ways: the collector takes
away, at every function, all names that the function declares anywhere, while the resolver has a
scope for every function and block. This module compares them, for an expression that stands in a
template.

* What is collected is recorded from a scope where it belongs to the root or is free, and at a place
  that lies in no function with a local of that name (`reportsRecorded`).
* What is recorded from such a scope is collected, unless it is only written there, or a function
  around it has a local of that name which is out of reach there (`countsRecorded`).
-/

namespace ReactiveMarkup

open Script (Expression Function Statement Target Node)
open Script.Node (Inside)

/-! ## Template expressions in their program -/

/-- The state with which the resolver comes to a template expression. -/
def Resolution.beforeTemplate (script : List Statement) (templates : List Expression) (k : Nat) :
    Resolution :=
  expressions rootScope (templates.take k) (statements rootScope script .start)

/-- What the resolver records while it resolves a template expression: the scope that a name is
referred to from, and the name. -/
def recordedReferences (script : List Statement) (templates : List Expression) (k : Nat)
    (e : Expression) : List (ScopeId × String) :=
  let r := Resolution.beforeTemplate script templates k
  (Resolution.expression rootScope e r).references.drop r.references.length

/-- The position in a program of what stands at a position of a template expression. -/
def templatePosition (script : List Statement) (k : Nat) (p : List Nat) : List Nat :=
  (script.length + k) :: 0 :: p

section

variable {script : List Statement} {templates : List Expression} {k : Nat} {e : Expression}

theorem children_program_template (stands : templates[k]? = some e) :
    (program script templates).children[script.length + k]? =
      some (.statement (.expression e)) := by
  simp [program, Node.children, List.getElem?_append_right, stands]

theorem at?_templatePosition (stands : templates[k]? = some e) (p : List Nat) :
    (program script templates).at? (templatePosition script k p) = (Node.expression e).at? p := by
  rw [templatePosition, Node.at?, children_program_template stands]
  rfl

/-- The resolver comes to a template expression after the script and the expressions before. -/
theorem before_program_template (script : List Statement) (templates : List Expression) (k : Nat) :
    Resolution.before rootScope (program script templates) .start (script.length + k) =
      Resolution.beforeTemplate script templates k := by
  have split : (program script templates).children.take (script.length + k) =
      script.map .statement ++ ((templates.take k).map .expression).map .statement := by
    simp [program, Node.children, List.take_append]
  rw [Resolution.before, split, Resolution.all_append, Resolution.all_templates,
    Resolution.beforeTemplate, Resolution.expressions_eq, Resolution.statements_eq]
  rfl

theorem comesTo_templatePosition (stands : templates[k]? = some e) (p : List Nat) :
    Resolution.comesTo rootScope (program script templates) .start (templatePosition script k p) =
      Resolution.comesTo rootScope (.expression e)
        (Resolution.beforeTemplate script templates k) p := by
  rw [templatePosition, Resolution.comesTo_cons (children_program_template stands),
    before_program_template]
  rfl

/-- The recorded references are those made at the positions of the expression, each from the scope
that the resolver gives the position. -/
theorem mem_recordedReferences_iff (stands : templates[k]? = some e) {scope : ScopeId}
    {name : String} :
    (scope, name) ∈ recordedReferences script templates k e ↔
      ∃ p y, (Node.expression e).at? p = some y ∧ name ∈ y.ownReferences ∧
        scope = (program script templates).resolvedScope (templatePosition script k p) := by
  obtain ⟨more, eq, mem_more⟩ := Resolution.notesExactly_node rootScope (.expression e)
    (Resolution.beforeTemplate script templates k)
  have recorded : recordedReferences script templates k e = more := by
    rw [recordedReferences, show Resolution.expression rootScope e _ = _ from rfl]
    exact (congrArg (List.drop _) eq).trans List.drop_left
  rw [recorded, mem_more]
  simp only [Node.resolvedScope, comesTo_templatePosition stands]
  rfl

end

/-! ## Locals of a function and names that are bound -/

namespace Script.Node

variable {e : Expression} {p : List Nat} {name : String}

/-- Less is introduced where fewer names count and more nodes are closed. -/
theorem Introduces.mono {own own' : Node → List String} {closed closed' : Node → Bool}
    (names : ∀ x, ∀ name ∈ own x, name ∈ own' x)
    (opens : ∀ x, closed x = false → closed' x = false) {x : Node}
    (introduces : Introduces own closed x name) : Introduces own' closed' x name := by
  induction introduces with
  | own mem => exact .own (names _ _ mem)
  | inside opened child _ ih => exact .inside (opens _ opened) child ih

theorem IntroducesLexical.declares {x : Node} (introduces : x.IntroducesLexical name) :
    x.Declares name := by
  refine Introduces.mono (fun _ _ mem => List.mem_append_left _ mem) (fun x plain => ?_)
    introduces
  cases x with
  | function f => cases plain
  | _ => rfl

theorem IntroducesVar.declares {x : Node} (introduces : x.IntroducesVar name) :
    x.Declares name :=
  Introduces.mono (fun _ _ mem => List.mem_append_right _ mem) (fun _ plain => plain) introduces

/-- Whether a block inside a node, with no function in between, binds a name. -/
def BindsInBlock (x : Node) (r : List Nat) (name : String) : Prop :=
  (∃ id body, x.at? r = some (.statement (.block id body)) ∧
    (Node.statement (.block id body)).Binds name) ∧
    ∀ s g, Inside r s → x.at? s ≠ some (.function g)

theorem bindsInBlock_cons {x y : Node} {i : Nat} {r : List Nat} (child : x.children[i]? = some y)
    (noFunction : ∀ g, x ≠ .function g) (binds : y.BindsInBlock r name) :
    x.BindsInBlock (i :: r) name := by
  obtain ⟨⟨id, body, found, binds⟩, direct⟩ := binds
  refine ⟨⟨id, body, ?_, binds⟩, fun s g inside found => ?_⟩
  · rw [at?, child]
    exact found
  · cases s with
    | nil => exact noFunction g (Option.some.inj found)
    | cons j s =>
      obtain ⟨rfl, within⟩ := inside_cons_cons.1 inside
      rw [at?, child] at found
      exact direct s g within found

/-- A name that a node declares belongs to the scope around the node, or to the function around it,
or to a block inside it. -/
theorem Declares.introduces {x : Node} (declares : x.Declares name) :
    x.IntroducesVar name ∨ x.IntroducesLexical name ∨ ∃ r, x.BindsInBlock r name := by
  induction declares with
  | own mem =>
    rcases List.mem_append.1 mem with lexical | var
    · exact .inr (.inl (.own lexical))
    · exact .inl (.own var)
  | @inside x y _ opened child _ ih =>
    have noFunction : ∀ g, x ≠ .function g := by
      rintro g rfl
      cases opened
    rcases ih with var | lexical | ⟨r, binds⟩
    · exact .inl (.inside opened child var)
    · cases has : x.id? with
      | none => exact .inr (.inl (.inside (by rw [has]; rfl) child lexical))
      | some id =>
        -- a node with a scope that is no function is a block
        obtain ⟨body, rfl⟩ : ∃ body, x = .statement (.block id body) := by
          cases x with
          | statement s =>
            cases s with
            | block id' body =>
              cases has
              exact ⟨body, rfl⟩
            | _ => cases has
          | function f => exact absurd rfl (noFunction f)
          | _ => cases has
        refine .inr (.inr ⟨[], ⟨id, body, rfl, .lexical rfl child lexical⟩, ?_⟩)
        exact fun s g inside => absurd inside (not_inside_nil s)
    · obtain ⟨i, child⟩ := List.mem_iff_getElem?.1 child
      exact .inr (.inr ⟨i :: r, bindsInBlock_cons child noFunction binds⟩)

theorem at?_expression_ne_script (body : List Statement) :
    (Node.expression e).at? p ≠ some (.script body) := by
  intro found
  obtain rfl | ⟨q, i, rfl⟩ := List.eq_nil_or_concat p
  · cases found
  · rw [List.concat_eq_append] at found
    obtain ⟨parent, -, child⟩ := at?_snoc found
    exact script_not_mem_children parent body (List.mem_of_getElem? child)

/-- What a statement inside an expression declares, a function around the statement takes for its
own. -/
theorem exists_localizes {s : Statement} (found : (Node.expression e).at? p = some (.statement s))
    (declares : (Node.statement s).Declares name) :
    ∃ q f, Inside p q ∧ (Node.expression e).at? q = some (.function f) ∧ f.Localizes name := by
  induction p using List.reverseRecOn generalizing s with
  | nil => cases found
  | append_singleton q i ih =>
    obtain ⟨z, above, child⟩ := at?_snoc found
    have member := List.mem_of_getElem? child
    cases z with
    | script body => exact absurd above (at?_expression_ne_script body)
    | statement s' =>
      have around : (Node.statement s').Declares name :=
        (declares_iff rfl).2 (.inr ⟨_, member, declares⟩)
      obtain ⟨q', f, inside, found, localizes⟩ := ih above around
      exact ⟨q', f, inside_snoc.2 (.inr inside), found, localizes⟩
    | declarator kind d => simp [children] at member
    | function f => exact ⟨q, f, inside_snoc.2 (.inl rfl), above, .inr ⟨_, member, declares⟩⟩
    | expression e' =>
      rcases children_expression e' _ member with ⟨_, eq⟩ | ⟨_, eq⟩ <;> cases eq

/-- Nothing around a position binds a name that no function around it takes for its own. -/
theorem unbound_of_not_localized
    (free : ∀ q f, Inside p q → (Node.expression e).at? q = some (.function f) →
      ¬ f.Localizes name) : (Node.expression e).Unbound p name := by
  intro q z inside found binds
  cases z with
  | script body => exact at?_expression_ne_script body found
  | function f =>
    refine free q f inside found ?_
    cases binds with
    | param mem => exact .inl (List.mem_append_left _ mem)
    | lexical _ child introduced => exact .inr ⟨_, child, introduced.declares⟩
    | var _ child introduced => exact .inr ⟨_, child, introduced.declares⟩
  | statement s =>
    have declares : (Node.statement s).Declares name := by
      cases binds with
      | lexical _ child introduced =>
        exact (declares_iff rfl).2 (.inr ⟨_, child, introduced.declares⟩)
      | var keeps _ _ => cases keeps
    obtain ⟨q', f, outer, found, localizes⟩ := exists_localizes found declares
    exact free q' f (inside.trans outer) found localizes
  | declarator kind d => cases binds.isScope
  | expression e' => cases binds.isScope

/-- Seen from a position of an expression, a name belongs to the root or is free if nothing around
the position, in the expression, binds it. -/
theorem rootOrFree_iff_unbound :
    (Node.expression e).RootOrFree p name ↔ (Node.expression e).Unbound p name := by
  rw [rootOrFree_iff_scopes]
  constructor
  · intro unbound q z inside found binds
    refine unbound q z inside found ?_ binds
    have scope := binds.isScope
    cases z with
    | script body => exact absurd found (at?_expression_ne_script body)
    | _ => exact scope
  · exact fun unbound q z inside found _ => unbound q z inside found

/-- Why an occurrence of a name that belongs to the root or is free does not count as a reading. -/
inductive Uncounted (x : Node) (p : List Nat) (name : String) : Prop
  /-- It is the target of an assignment. -/
  | assigned {operator : String} {target : Target} {right : Expression}
      (found : x.at? p = some (.expression (.assignment operator target right)))
  /-- It stands in the target of an update that does not write to the name. -/
  | updated {q : List Nat} {operator : String} {leading : Bool} {target : Target}
      (inside : Inside p q)
      (found : x.at? q = some (.expression (.update operator leading target)))
      (other : name ∉ target.names)
  /-- It stands in a function of that name. -/
  | ownName {q : List Nat} {f : Function} (inside : Inside p q)
      (found : x.at? q = some (.function f)) (named : f.signature.name = some name)
  /-- It stands in a function one of whose blocks binds the name, and not in that block. -/
  | otherBlock {q r : List Nat} {f : Function} (inside : Inside p q)
      (found : x.at? q = some (.function f)) {i : Nat} {y : Node}
      (child : (Node.function f).children[i]? = some y) (binds : y.BindsInBlock r name)
      (apart : ¬ Inside p (q ++ i :: r))

/-- What keeps an occurrence from being seen where nothing around it binds the name. -/
theorem uncounted_of_overlooks (unbound : (Node.expression e).Unbound p name)
    (overlooks : (Node.expression e).Overlooks p name) : (Node.expression e).Uncounted p name := by
  cases overlooks with
  | assigned found => exact .assigned found
  | updated inside found other => exact .updated inside found other
  | declared declares => exact absurd declares (not_declares_expression e name)
  | @localized q f inside found own =>
    have free := unbound q _ inside found
    rcases own with own | ⟨y, child, declares⟩
    · rcases List.mem_append.1 own with param | own
      · exact absurd (.param param) free
      · exact .ownName inside found (Option.mem_toList.1 own)
    · rcases declares.introduces with var | lexical | ⟨r, binds⟩
      · exact absurd (.var rfl child var) free
      · exact absurd (.lexical rfl child lexical) free
      · obtain ⟨i, child⟩ : ∃ i, (Node.function f).children[i]? = some y :=
          List.mem_iff_getElem?.1 child
        refine .otherBlock inside found child binds fun around => ?_
        obtain ⟨⟨id, body, block, blockBinds⟩, -⟩ := binds
        refine unbound _ _ around ?_ blockBinds
        rw [at?_append, found, Option.bind_some, at?, child]
        exact block

end Script.Node

/-! ## Each name is listed once -/

namespace Script.Usage

theorem nodup_node {x : Node} {u : Usage} (distinct : u.reads.Nodup) :
    (u.node x).reads.Nodup := by
  induction x using Node.induction generalizing u with
  | step x ih =>
    have children : (u.all x.children).reads.Nodup := by
      suffices several : ∀ xs : List Node, (∀ y ∈ xs, y ∈ x.children) → ∀ v : Usage,
          v.reads.Nodup → (v.all xs).reads.Nodup from several _ (fun _ mem => mem) u distinct
      intro xs
      induction xs with
      | nil => exact fun _ _ distinct => distinct
      | cons y rest ihRest =>
        intro part v distinct
        exact ihRest (fun z mem => part z (List.mem_cons_of_mem y mem)) _
          (ih y (part y List.mem_cons_self) distinct)
    by_cases update : ∃ operator leading target, x = .expression (.update operator leading target)
    · obtain ⟨operator, leading, target, rfl⟩ := update
      exact nodup_addNames distinct
    · cases function : Resolution.opensFunction x with
      | true =>
        cases x with
        | function f => exact nodup_addNames distinct
        | _ => cases function
      | false =>
        rw [node_eq function (by simpa using update)]
        exact nodup_addNames children

end Script.Usage

theorem Script.Expression.nodup_references (e : Expression) : e.references.Nodup :=
  Script.Usage.nodup_node (x := .expression e) (u := ⟨[], []⟩) List.nodup_nil

/-! ## The comparison -/

section

variable {script : List Statement} {templates : List Expression} {k : Nat} {e : Expression}
  {p : List Nat} {y : Node} {name : String}

theorem isRootOrFree_templatePosition (stands : templates[k]? = some e)
    (found : (Node.expression e).at? p = some y) :
    (ScopeTree.resolve script templates).isRootOrFree
        ((program script templates).resolvedScope (templatePosition script k p)) name = true ↔
      (Node.expression e).Unbound p name := by
  have inProgram : (program script templates).at? (templatePosition script k p) = some y :=
    (at?_templatePosition stands p).trans found
  have frames : (program script templates).frames (templatePosition script k p) =
      (Node.expression e).frames p := by
    rw [templatePosition, Node.frames, children_program_template stands]
    simp [Node.frames, Node.children, Node.ofStatement, Node.frame?, program]
  rw [ScopeTree.isRootOrFree_resolvedScope inProgram (List.cons_ne_nil _ _),
    ← Node.rootOrFree_iff_unbound, Node.RootOrFree, Node.RootOrFree, frames]

end

/-- What it means that collecting leaks no local name. -/
structure ReportsRecorded (script : List Statement) (templates : List Expression) : Prop where
  /-- No name is listed twice. -/
  distinct : ∀ e ∈ templates, e.references.Nodup
  /-- A name that is listed has an occurrence that the resolver records from a scope where the name
  belongs to the root or is free, and that lies in no function with a local of that name. -/
  reported : ∀ k e, templates[k]? = some e → ∀ name ∈ e.references, ∃ p y scope,
    (Node.expression e).at? p = some y ∧ name ∈ y.ownReferences ∧
      scope = (program script templates).resolvedScope (templatePosition script k p) ∧
      (scope, name) ∈ recordedReferences script templates k e ∧
      (ScopeTree.resolve script templates).isRootOrFree scope name = true ∧
      ∀ q f, Inside p q → (Node.expression e).at? q = some (.function f) → ¬ f.Localizes name

/-- **Collecting leaks no local name**, for every script and every list of template
expressions. -/
theorem reportsRecorded (script : List Statement) (templates : List Expression) :
    ReportsRecorded script templates where
  distinct e _ := e.nodup_references
  reported k e stands name mem := by
    obtain ⟨p, ⟨⟨y, found, mem⟩, passed⟩, -⟩ := Script.Expression.mem_references_iff.1 mem
    have refers := Node.mem_ownReferences_of_ownReads mem
    have free : ∀ q f, Inside p q → (Node.expression e).at? q = some (.function f) →
        ¬ f.Localizes name := fun q f inside around => passed q _ inside around
    refine ⟨p, y, _, found, refers, rfl, ?_, ?_, free⟩
    · exact (mem_recordedReferences_iff stands).2 ⟨p, y, found, refers, rfl⟩
    · exact (isRootOrFree_templatePosition stands found).2 (Node.unbound_of_not_localized free)

/-- What it means that collecting misses no recorded reference but those that do not count. -/
structure CountsRecorded (script : List Statement) (templates : List Expression) : Prop where
  /-- The recorded references are made at the positions of the expression. -/
  recorded : ∀ k e, templates[k]? = some e → ∀ scope name,
    (scope, name) ∈ recordedReferences script templates k e ↔
      ∃ p y, (Node.expression e).at? p = some y ∧ name ∈ y.ownReferences ∧
        scope = (program script templates).resolvedScope (templatePosition script k p)
  /-- Where one is made from a scope in which the name belongs to the root or is free, the name is
  listed, or the occurrence does not count. -/
  counted : ∀ k e, templates[k]? = some e → ∀ p y name,
    (Node.expression e).at? p = some y → name ∈ y.ownReferences →
      (ScopeTree.resolve script templates).isRootOrFree
        ((program script templates).resolvedScope (templatePosition script k p)) name = true →
      name ∈ e.references ∨ (Node.expression e).Uncounted p name

/-- **Collecting misses nothing that counts**, for every script and every list of template
expressions. -/
theorem countsRecorded (script : List Statement) (templates : List Expression) :
    CountsRecorded script templates where
  recorded k e stands scope name := mem_recordedReferences_iff stands
  counted k e stands p y name found refers rootOrFree := by
    by_cases sees : (Node.expression e).Sees p name
    · exact .inl (Script.Expression.mem_references_iff.2 ⟨p, sees⟩)
    · have unbound := (isRootOrFree_templatePosition stands found).1 rootOrFree
      have overlooks := Node.overlooks_of_not_sees found refers sees
      exact .inr (Node.uncounted_of_overlooks unbound overlooks)

/-- `let a = 0;` -/
def outerState : List Statement :=
  [.declaration .lexical [⟨.identifier "a", some (.verbatim "0" [])⟩]]

/-- `(() => { { let a = 1; } return a; })()` -/
def besideBlock : Expression :=
  .call (.parenthesized (.function ⟨0, ⟨none, true, false, false, [], []⟩,
    .block [.block 1 [.declaration .lexical [⟨.identifier "a", some (.verbatim "1" [])⟩]],
      .result (some (.identifier "a"))]⟩)) [] false

/-- Behind a block that declares the name, a function refers to the name of the top level, and the
resolver records that. The name is not among those that are listed. -/
theorem unlisted_beside_block :
    (Node.expression besideBlock).at? [0, 0, 0, 1, 0] = some (.expression (.identifier "a")) ∧
      ((program outerState [besideBlock]).resolvedScope
          (templatePosition outerState 0 [0, 0, 0, 1, 0]), "a") ∈
        recordedReferences outerState [besideBlock] 0 besideBlock ∧
      (ScopeTree.resolve outerState [besideBlock]).owner?
        ((program outerState [besideBlock]).resolvedScope
          (templatePosition outerState 0 [0, 0, 0, 1, 0])) "a" = some rootScope ∧
      (ScopeTree.resolve outerState [besideBlock]).isRootOrFree
        ((program outerState [besideBlock]).resolvedScope
          (templatePosition outerState 0 [0, 0, 0, 1, 0])) "a" = true ∧
      "a" ∉ besideBlock.references :=
  ⟨rfl, by decide +kernel, by decide +kernel, by decide +kernel, by decide +kernel⟩

end ReactiveMarkup
