import ReactiveMarkup.Proofs.ScopeResolution

/-!
# What a scope binds

The names that a function, a block or the top level binds, told by where their declarations stand
and not by a list of them:

* a function binds its parameters;
* a scope binds the `let`, `const` and function names whose declarations stand in it with no other
  function or block in between;
* a function and the top level bind the `var` names whose declarations stand in them with no other
  function in between.

A declaration counts wherever in the scope it stands, so the order of statements does not matter
(`Reordered.binds_iff`). The lists of `Node.frame?` hold exactly these names (`mem_frame?_iff`).
-/

namespace ReactiveMarkup.Script.Node

open Resolution (opensFunction)

/-- Whether a node, or what stands inside it, introduces a name. Nodes that are closed keep what is
inside them to themselves. -/
inductive Introduces (own : Node → List String) (closed : Node → Bool) : Node → String → Prop
  | own {x : Node} {name : String} (mem : name ∈ own x) : Introduces own closed x name
  | inside {x y : Node} {name : String} (opened : closed x = false) (child : y ∈ x.children)
      (introduced : Introduces own closed y name) : Introduces own closed x name

theorem introduces_iff {own : Node → List String} {closed : Node → Bool} {x : Node}
    {name : String} :
    Introduces own closed x name ↔
      name ∈ own x ∨ closed x = false ∧ ∃ y ∈ x.children, Introduces own closed y name := by
  constructor
  · intro introduced
    cases introduced with
    | own mem => exact .inl mem
    | inside opened child introduced => exact .inr ⟨opened, _, child, introduced⟩
  · rintro (mem | ⟨opened, y, child, introduced⟩)
    · exact .own mem
    · exact .inside opened child introduced

/-- Whether a node has a scope of its own: a function, a block or the top level. -/
def isScope : Node → Bool
  | .script _ => true
  | x => x.id?.isSome

/-- Whether a node keeps the `var` names inside it: a function or the top level. -/
def keepsVars : Node → Bool
  | .script _ => true
  | x => opensFunction x

/-- Whether the `let`, `const` or function declaration of a name stands in a node with no function
or block in between. -/
def IntroducesLexical (x : Node) (name : String) : Prop :=
  Introduces ownLexical (fun z => z.id?.isSome) x name

/-- Whether the `var` declaration of a name stands in a node with no function in between. -/
def IntroducesVar (x : Node) (name : String) : Prop := Introduces ownVar opensFunction x name

/-- Whether a function, a block or the top level binds a name for what is inside it. -/
inductive Binds : Node → String → Prop
  | param {f : Function} {name : String} (mem : name ∈ f.signature.paramNames) :
    Binds (.function f) name
  | lexical {x y : Node} {name : String} (scope : x.isScope = true) (child : y ∈ x.children)
      (introduced : y.IntroducesLexical name) : Binds x name
  | var {x y : Node} {name : String} (keeps : x.keepsVars = true) (child : y ∈ x.children)
      (introduced : y.IntroducesVar name) : Binds x name

/-- A name that is bound is bound by a scope. -/
theorem Binds.isScope {x : Node} {name : String} (binds : x.Binds name) : x.isScope = true := by
  cases binds with
  | param mem => rfl
  | lexical scope child introduced => exact scope
  | var keeps child introduced =>
    cases x with
    | script body => rfl
    | function f => rfl
    | _ => simp [keepsVars, opensFunction] at keeps

/-! ## The lists of names -/

theorem mem_lexicalNames_iff {x : Node} {name : String} :
    name ∈ x.lexicalNames ↔ x.IntroducesLexical name := by
  induction x using Node.induction with
  | step x ih =>
    rw [IntroducesLexical, introduces_iff]
    cases has : x.id? with
    | none =>
      rw [lexicalNames_eq has, List.mem_append, List.mem_flatMap]
      refine or_congr Iff.rfl ?_
      simp only [Option.isSome_none, true_and]
      exact exists_congr fun y => and_congr_right fun child => ih y child
    | some id =>
      have none : x.ownLexical = [] := by
        cases x with
        | statement s =>
          cases s with
          | block id' body => rfl
          | _ => simp [id?] at has
        | function f => rfl
        | _ => simp [id?] at has
      simp [Resolution.lexicalNames_of_scope has, none]

theorem mem_varNames_iff {x : Node} {name : String} :
    name ∈ x.varNames ↔ x.IntroducesVar name := by
  induction x using Node.induction with
  | step x ih =>
    rw [IntroducesVar, introduces_iff]
    cases function : opensFunction x with
    | false =>
      have notFunction : ∀ f, x ≠ .function f := by
        rintro f rfl
        simp [opensFunction] at function
      rw [varNames_eq notFunction, List.mem_append, List.mem_flatMap]
      refine or_congr Iff.rfl ?_
      simp only [true_and]
      exact exists_congr fun y => and_congr_right fun child => ih y child
    | true =>
      cases x with
      | function f => simp [varNames, ownVar]
      | _ => simp [opensFunction] at function

/-- The frame of a function or block holds the names that it binds. -/
theorem mem_frame?_iff {x : Node} {frame : List String} (isFrame : x.frame? = some frame)
    {name : String} : name ∈ frame ↔ x.Binds name := by
  obtain ⟨id, has⟩ : ∃ id, x.id? = some id := by
    cases has : x.id? with
    | none =>
      rw [Resolution.frame?_eq_none has] at isFrame
      cases isFrame
    | some id => exact ⟨id, rfl⟩
  obtain rfl := Option.some.inj ((Resolution.frame_of_scope has).symm.trans isFrame)
  -- what has a frame opens a scope, and keeps the `var` names of a function to itself
  have scope : x.isScope = true := by
    cases x with
    | script body => rfl
    | _ => simp [isScope, has]
  have keeps : x.keepsVars = opensFunction x := by
    cases x with
    | script body => simp [id?] at has
    | _ => rfl
  have lexical : name ∈ x.children.flatMap lexicalNames ↔
      ∃ y ∈ x.children, y.IntroducesLexical name := by
    simp [List.mem_flatMap, mem_lexicalNames_iff]
  have vars : (name ∈ if opensFunction x then x.children.flatMap varNames else []) ↔
      x.keepsVars = true ∧ ∃ y ∈ x.children, y.IntroducesVar name := by
    rw [keeps]
    cases opensFunction x <;> simp [List.mem_flatMap, mem_varNames_iff]
  rw [List.mem_append, List.mem_append, lexical, vars]
  constructor
  · rintro ((mem | ⟨y, child, introduced⟩) | ⟨keeps, y, child, introduced⟩)
    · cases x with
      | function f => exact .param mem
      | _ => simp [Resolution.params] at mem
    · exact .lexical scope child introduced
    · exact .var keeps child introduced
  · intro binds
    cases binds with
    | param mem => exact .inl (.inl mem)
    | lexical _ child introduced => exact .inl (.inr ⟨_, child, introduced⟩)
    | var keeps child introduced => exact .inr ⟨keeps, _, child, introduced⟩

/-- The top level binds the names that its statements introduce. -/
theorem binds_script_iff {body : List Statement} {name : String} :
    (Node.script body).Binds name ↔
      name ∈ (Node.script body).lexicalNames ∨ name ∈ (Node.script body).varNames := by
  have own : name ∉ (Node.script body).ownLexical ∧ name ∉ (Node.script body).ownVar := by
    simp [ownLexical, ownVar]
  rw [mem_lexicalNames_iff, mem_varNames_iff, IntroducesLexical, IntroducesVar, introduces_iff,
    introduces_iff]
  constructor
  · intro binds
    cases binds with
    | lexical _ child introduced => exact .inl (.inr ⟨rfl, _, child, introduced⟩)
    | var _ child introduced => exact .inr (.inr ⟨rfl, _, child, introduced⟩)
  · rintro ((mem | ⟨-, y, child, introduced⟩) | (mem | ⟨-, y, child, introduced⟩))
    · exact absurd mem own.1
    · exact .lexical rfl child introduced
    · exact absurd mem own.2
    · exact .var rfl child introduced

/-! ## The order of statements -/

/-- Two scopes that differ in the order of their statements only. -/
inductive Reordered : Node → Node → Prop
  | script {body body' : List Statement} (perm : body.Perm body') :
    Reordered (.script body) (.script body')
  | block {id : Nat} {body body' : List Statement} (perm : body.Perm body') :
    Reordered (.statement (.block id body)) (.statement (.block id body'))
  | function {id : Nat} {signature : Signature} {body body' : List Statement}
      (perm : body.Perm body') :
    Reordered (.function ⟨id, signature, .block body⟩) (.function ⟨id, signature, .block body'⟩)

namespace Reordered

variable {x y : Node}

theorem symm (h : Reordered x y) : Reordered y x := by
  cases h with
  | script perm => exact .script perm.symm
  | block perm => exact .block perm.symm
  | function perm => exact .function perm.symm

theorem children_perm (h : Reordered x y) : x.children.Perm y.children := by
  cases h with
  | script perm => exact perm.map _
  | block perm => exact perm.map _
  | function perm => exact perm.map _

theorem binds {name : String} (h : Reordered x y) (binds : x.Binds name) : y.Binds name := by
  have scope : y.isScope = x.isScope := by cases h <;> rfl
  have keeps : y.keepsVars = x.keepsVars := by cases h <;> rfl
  have mem : ∀ {c : Node}, c ∈ x.children → c ∈ y.children := h.children_perm.mem_iff.1
  cases binds with
  | param param =>
    cases h with
    | function perm => exact .param param
  | lexical isScope child introduced => exact .lexical (scope ▸ isScope) (mem child) introduced
  | var keepsVars child introduced => exact .var (keeps ▸ keepsVars) (mem child) introduced

/-- **Where in a scope a declaration stands does not matter.** -/
theorem binds_iff {name : String} (h : Reordered x y) : x.Binds name ↔ y.Binds name :=
  ⟨h.binds, h.symm.binds⟩

end Reordered

end ReactiveMarkup.Script.Node
