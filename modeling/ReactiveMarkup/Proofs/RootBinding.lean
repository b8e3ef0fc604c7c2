import ReactiveMarkup.Proofs.ChangingNames
import ReactiveMarkup.Proofs.GeneratedName

/-!
# Names of the root in a client module

The scopes of a component are resolved before its reactive declarations are taken out of the script.
A client module runs the bodies of these in a function of their own, and what is left of the script
stands at its top level. A `var` in a body is a name of the root, but in the module it belongs to
that function. So the top level of a client module binds exactly those names of the root that some
other statement declares (`keepsDeclared`), and a name may be left without a binding there
(`unbound_of_hoisting`).
-/

namespace ReactiveMarkup

open Script (Expression Statement Declarator DeclarationKind Node)

/-! ## Names that statements bind around them -/

/-- Whether a statement binds a name in the function around it, or at the top level, when it stands
in no block. -/
def Script.Statement.BindsAround (s : Statement) (name : String) : Prop :=
  (Node.statement s).IntroducesLexical name ∨ (Node.statement s).IntroducesVar name

theorem Script.Statement.bindsAround_iff {s : Statement} {name : String} :
    s.BindsAround name ↔ name ∈ s.lexicalNames ∨ name ∈ s.varNames := by
  rw [BindsAround, ← Node.mem_lexicalNames_iff, ← Node.mem_varNames_iff]
  rfl

/-- A label does not change what a statement binds. -/
theorem Script.Statement.bindsAround_labeled {label : String} {body : Statement} {name : String} :
    (Statement.labeled label body).BindsAround name ↔ body.BindsAround name := by
  rw [bindsAround_iff, bindsAround_iff, lexicalNames, varNames]

namespace Script.Node

/-- The top level binds what its statements bind around them. -/
theorem binds_script_iff_bindsAround {body : List Statement} {name : String} :
    (Node.script body).Binds name ↔ ∃ s ∈ body, s.BindsAround name := by
  rw [binds_script_iff, lexicalNames, varNames, List.mem_flatMap, List.mem_flatMap, ← exists_or]
  refine exists_congr fun s => ?_
  rw [Script.Statement.bindsAround_iff, and_or_left]

end Script.Node

/-- Template expressions bind nothing at the top level. -/
theorem binds_program_iff {script : List Statement} {templates : List Expression} {name : String} :
    (program script templates).Binds name ↔ ∃ s ∈ script, s.BindsAround name := by
  have plain : ¬∃ s ∈ templates.map Statement.expression, s.BindsAround name := by
    rintro ⟨s, mem, binds⟩
    obtain ⟨e, -, rfl⟩ := List.mem_map.1 mem
    simp [Script.Statement.bindsAround_iff, Script.Statement.lexicalNames,
      Script.Statement.varNames] at binds
  rw [program, Node.binds_script_iff_bindsAround]
  simp only [List.mem_append, or_and_right, exists_or, plain, or_false]

/-- The root of a scope tree has the names that the top level of the program binds. -/
theorem mem_rootNames_resolve_iff {script : List Statement} {templates : List Expression}
    {name : String} :
    name ∈ (ScopeTree.resolve script templates).rootNames ↔
      (program script templates).Binds name := by
  have ordered := ScopeTree.ordered_resolve script templates
  have owned := @ScopeTree.owner?_root script templates name
  generalize ScopeTree.resolve script templates = t at *
  have owner : t.owner? rootScope name =
      if t.declaresAt rootScope name then some rootScope else none := by
    have eq := ScopeTree.owner?_eq ordered name ordered.length_pos
    rw [ordered.root] at eq
    exact eq
  have declared : name ∈ t.rootNames ↔ t.declaresAt rootScope name = true := by
    unfold ScopeTree.rootNames ScopeTree.declaresAt
    cases t.scopes with
    | nil => simp [rootScope]
    | cons root rest => simp [rootScope, Scope.declares]
  rw [declared]
  by_cases binds : (program script templates).Binds name
  · simpa [binds] using owner.symm.trans (owned.1 binds)
  · simpa [binds] using owner.symm.trans (owned.2 binds)

namespace Client

/-! ## Notifications bind nothing -/

section

variable (tree : ScopeTree) (invalidated : NameSet)

theorem flatMap_names_notifyDeclarator (stack : ScopeStack) (items : List Declarator) :
    (items.map (notifyDeclarator tree invalidated stack)).flatMap (·.pattern.names) =
      items.flatMap (·.pattern.names) := by
  rw [List.flatMap_map]
  rfl

/-- Notifications keep the names that a node binds in the scope and in the function where it
stands. -/
theorem names_notifyNode (x : Node) (stack : ScopeStack) :
    (notifyNode tree invalidated stack x).lexicalNames = x.lexicalNames ∧
      (notifyNode tree invalidated stack x).varNames = x.varNames := by
  induction x using Node.induction generalizing stack with
  | step x ih =>
    -- a node takes over names only from the statements below it
    have below {s : Statement} (mem : .statement s ∈ x.children) (stack : ScopeStack) :
        (notifyStatement tree invalidated stack s).lexicalNames = s.lexicalNames ∧
          (notifyStatement tree invalidated stack s).varNames = s.varNames :=
      ih (.statement s) mem stack
    cases x with
    | script body =>
      rw [notifyNode_script, Node.lexicalNames, Node.lexicalNames, Node.varNames, Node.varNames,
        List.flatMap_map, List.flatMap_map]
      exact ⟨List.flatMap_congr fun s mem => (below (List.mem_map_of_mem mem) stack).1,
        List.flatMap_congr fun s mem => (below (List.mem_map_of_mem mem) stack).2⟩
    | statement s =>
      rw [notifyNode_statement]
      unfold Node.lexicalNames Node.varNames
      cases s with
      | declaration kind items =>
        simp [Statement.lexicalNames, Statement.varNames, flatMap_names_notifyDeclarator]
      | function f =>
        obtain ⟨id, signature, body⟩ := f
        cases body <;> simp [Statement.lexicalNames, Statement.varNames]
      | block id body =>
        simp only [notifyStatement_block, Statement.lexicalNames, Statement.varNames, true_and,
          Statement.allVarNames_eq, List.flatMap_map]
        exact List.flatMap_congr fun s mem => (below (List.mem_map_of_mem mem) _).2
      | conditional test consequent alternate =>
        have first := below (s := consequent) (by simp [Node.children, Node.ofStatement]) stack
        cases alternate with
        | none => simp [Statement.lexicalNames, Statement.varNames, first]
        | some alternate =>
          have second := below (s := alternate) (by simp [Node.children, Node.ofStatement]) stack
          simp [Statement.lexicalNames, Statement.varNames, first, second]
      | labeled label body =>
        have inner := below (s := body) (by simp [Node.children, Node.ofStatement]) stack
        simp [Statement.lexicalNames, Statement.varNames, inner]
      | _ => simp [Statement.lexicalNames, Statement.varNames]
    | declarator kind d => simp [Node.lexicalNames, Node.varNames, notifyDeclarator]
    | function f => simp [Node.lexicalNames, Node.varNames]
    | expression e => simp [Node.lexicalNames, Node.varNames]

/-- The script of a client module binds the names that the script without notifications binds. -/
theorem binds_notifyScript_iff {a : Analysis} {body : List Statement} {name : String} :
    (Node.script (notifyScript a body)).Binds name ↔ (Node.script body).Binds name := by
  have kept := names_notifyNode a.scopes a.invalidated (.script body) .start
  rw [Node.binds_script_iff, Node.binds_script_iff, ← kept.1, ← kept.2]
  rfl

end

/-! ## The top level of a client module -/

/-- Whether the top level of a client module binds a name: the script left there binds it, or the
module declares it because a reactive declaration assigns it and the script does not declare it. -/
inductive BindsAtTop (a : Analyzed) (name : String) : Prop
  | script (binds : (Node.script (notifyScript a.analysis a.component.script)).Binds name)
  | assigned (declared : .declare name none ∈ undeclaredBindings a.analysis)

/-- Which names of the root a client module keeps declared. -/
structure KeepsDeclared (component : Component) (marker : String) (options : Options) : Prop where
  /-- The module declares the names that the script leaves undeclared and holds the script and the
  function that recomputes; nothing else in it declares a name but those of the module itself. -/
  module : ∃ front behind, (generate (component.analyze marker).component
        (component.analyze marker).analysis options).code.body =
      undeclaredBindings (component.analyze marker).analysis ++ front ++
        embedScript (notifyScript (component.analyze marker).analysis
          (component.analyze marker).component.script) ++
        recomputation (component.analyze marker).analysis :: behind ∧
      ∀ s ∈ front ++ behind, ∀ name ∈ s.declared,
        name ∈ ownNames (documentDraft options (component.analyze marker).analysis component.html)
  /-- The names of the root are those that the statements of the script bind around them. -/
  root : ∀ name, name ∈ (component.analyze marker).analysis.rootVariables ↔
    ∃ s ∈ component.script, s.BindsAround name
  /-- Of these, the top level of the module binds those that a statement binds which is no reactive
  declaration. -/
  kept : ∀ name ∈ (component.analyze marker).analysis.rootVariables,
    BindsAtTop (component.analyze marker) name ↔
      ∃ s ∈ component.script, s.isReactive = false ∧ s.BindsAround name
  /-- The others are left to bodies of reactive declarations, which run in a function of their
  own. -/
  left : ∀ name ∈ (component.analyze marker).analysis.rootVariables,
    ¬BindsAtTop (component.analyze marker) name →
      ∃ d ∈ (component.analyze marker).analysis.declarations, d.body.BindsAround name

section

variable {component : Component} {marker name : String}

theorem mem_rootVariables_iff :
    name ∈ (component.analyze marker).analysis.rootVariables ↔
      ∃ s ∈ component.script, s.BindsAround name :=
  mem_rootNames_resolve_iff.trans binds_program_iff

/-- What is left of a script binds what the statements bind that are no reactive declarations. -/
theorem binds_residue_iff {script : List Statement} :
    (Node.script (extractReactive script).residue).Binds name ↔
      ∃ s ∈ script, s.isReactive = false ∧ s.BindsAround name := by
  rw [Node.binds_script_iff_bindsAround, extractReactive, residue_eq]
  simp [and_assoc]

/-- What stands at the top level of a client module. -/
theorem topLevel_generate (component : Component) (analysis : Analysis) (options : Options) :
    ∃ front behind, (generate component analysis options).code.body =
        undeclaredBindings analysis ++ front ++
          embedScript (notifyScript analysis component.script) ++
          recomputation analysis :: behind ∧
      ∀ s ∈ front ++ behind, ∀ name ∈ s.declared,
        name ∈ ownNames (documentDraft options analysis component.html) := by
  generalize hdraft : documentDraft options analysis component.html = draft
  refine ⟨stateBindings draft, dispatcher :: (firstRecomputation analysis ++
    [assignTo Vocabulary.pending (.array []), assignTo Vocabulary.dispatching (.boolean false),
      .constant Vocabulary.lifecycle (lifecycle options draft),
      .result (.identifier Vocabulary.lifecycle)]), by simp [generate, hdraft], ?_⟩
  have first : ∀ s ∈ firstRecomputation analysis, s.declared = [] := by
    unfold firstRecomputation
    split <;> simp [Emission.Statement.declared]
  intro s mem name declared
  rw [mem_ownNames_iff]
  simp only [stateBindings, List.mem_append, List.mem_cons, List.mem_map, List.not_mem_nil,
    or_false] at mem
  rcases mem with ((rfl | rfl | rfl) | ⟨binding, mem, rfl⟩) | rfl | mem | rfl | rfl | rfl | rfl
  all_goals simp_all [Emission.Statement.declared, fixedNames, dispatcher, assignTo]

/-- The module declares no names of the root itself. -/
theorem bindsAtTop_iff (root : name ∈ (component.analyze marker).analysis.rootVariables) :
    BindsAtTop (component.analyze marker) name ↔
      ∃ s ∈ component.script, s.isReactive = false ∧ s.BindsAround name := by
  rw [← binds_residue_iff]
  constructor
  · rintro (binds | declared)
    · exact binds_notifyScript_iff.1 binds
    · obtain ⟨other, mem, same⟩ := List.mem_map.1 declared
      cases same
      exact absurd root ((mem_undeclaredAssignees_iff _).1 mem).2
  · exact fun binds => .script (binds_notifyScript_iff.2 binds)

/-- **A client module keeps the names of the root declared** that some statement other than a
reactive declaration declares, and no others. -/
theorem keepsDeclared (component : Component) (marker : String) (options : Options) :
    KeepsDeclared component marker options where
  module := topLevel_generate _ _ options
  root name := mem_rootVariables_iff
  kept name root := bindsAtTop_iff root
  left name root unbound := by
    obtain ⟨s, mem, binds⟩ := mem_rootVariables_iff.1 root
    cases reactive : s.isReactive with
    | false => exact absurd ((bindsAtTop_iff root).2 ⟨s, mem, reactive, binds⟩) unbound
    | true =>
      obtain ⟨body, rfl⟩ := Statement.isReactive_iff.1 reactive
      obtain ⟨i, stands⟩ := List.mem_iff_getElem?.1 mem
      refine ⟨.ofBody (0 + i) body, ?_, Statement.bindsAround_labeled.1 binds⟩
      exact (orderReactive_perm _).mem_iff.2 (mem_declarations_iff.2 ⟨i, body, stands, rfl⟩)

end

/-- A reactive declaration with a block that declares `x`, and markup that shows it. -/
def hoisting : Component where
  html := [.expression (.identifier "x")]
  script :=
    [.labeled reactiveLabel
      (.block 1 [.declaration .var [⟨.identifier "x", some (.verbatim "1" [])⟩]])]

/-- The root has `x`, and the top level of the module does not. -/
theorem unbound_of_hoisting :
    "x" ∈ (hoisting.analyze "on:").analysis.rootVariables ∧
      ¬BindsAtTop (hoisting.analyze "on:") "x" := by
  have root : "x" ∈ (hoisting.analyze "on:").analysis.rootVariables := by decide +kernel
  refine ⟨root, fun binds => ?_⟩
  obtain ⟨s, mem, plain, -⟩ := (bindsAtTop_iff root).1 binds
  obtain rfl := List.mem_singleton.1 mem
  cases plain

end Client

end ReactiveMarkup
