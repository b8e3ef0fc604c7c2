import ReactiveMarkup.Proofs.AssignmentOrder
import ReactiveMarkup.Proofs.CodeTokens
import ReactiveMarkup.Proofs.Lifecycle

/-!
# Generated names are hygienic

The names that a client module introduces start with two dollar signs. If no name of the script
does, the two do not meet: what the module declares is declared once, and every identifier outside
script text refers to what it is meant for (`generated_names_hygienic`).

Identifiers are resolved piece by piece: each piece of a draft uses its own bindings, the binding of
its parent and the parameters of the method that it goes into (`ResolvedDraft`), and the pieces of a
document resolve together. That bindings are assigned in `create` before they are read is
`AssignsInOrder`.
-/

namespace ReactiveMarkup.Client

open Emission (Statement Expression Use parameterName)
open Document (Older)

/-! ## The names of a module -/

/-- The names that every client module declares, in front of its bindings and behind them. -/
def fixedNames : List String :=
  [Vocabulary.pending, Vocabulary.dispatching, Vocabulary.mounted, Vocabulary.recompute,
    Vocabulary.update, Vocabulary.lifecycle]

/-- The names that a client module declares itself, in the order of their declarations. -/
def ownNames (draft : Draft) : List String :=
  fixedNames.take 3 ++ (draft.bindings ++ fixedNames.drop 3)

theorem mem_ownNames_iff {draft : Draft} {name : String} :
    name ∈ ownNames draft ↔ name ∈ draft.bindings ∨ name ∈ fixedNames := by
  rw [← List.take_append_drop 3 fixedNames]
  simp only [ownNames, List.mem_append]
  exact or_left_comm

theorem isGenerated_of_mem_fixedNames : ∀ name ∈ fixedNames, IsGenerated name := by decide

section

variable (options : Options) (analysis : Analysis) (html : List Fragment)

theorem isGenerated_of_mem_bindings {name : String}
    (mem : name ∈ (documentDraft options analysis html).bindings) : IsGenerated name := by
  obtain ⟨stem, number, rfl, -⟩ :=
    (numbered_fragmentsDraft options analysis html _ 0).exists_number mem
  exact isGenerated_bindingName stem number

theorem isGenerated_of_mem_ownNames {name : String}
    (mem : name ∈ ownNames (documentDraft options analysis html)) : IsGenerated name :=
  (mem_ownNames_iff.1 mem).elim (isGenerated_of_mem_bindings options analysis html)
    (isGenerated_of_mem_fixedNames name)

theorem not_mem_bindings_of_mem_fixedNames {name : String} (mem : name ∈ fixedNames) :
    name ∉ (documentDraft options analysis html).bindings := by
  have plain : ∀ name ∈ fixedNames, '_' ∉ name.toList := by decide
  exact not_mem_bindings options analysis (plain name mem) html

/-- The names that a client module declares itself are distinct. -/
theorem nodup_ownNames : (ownNames (documentDraft options analysis html)).Nodup := by
  have apart {name : String} (mem : name ∈ (documentDraft options analysis html).bindings) :
      name ∉ fixedNames :=
    fun fixed => not_mem_bindings_of_mem_fixedNames options analysis html fixed mem
  have behind : ((documentDraft options analysis html).bindings ++ fixedNames.drop 3).Nodup :=
    List.nodup_append.2 ⟨nodup_bindings options analysis html, by decide,
      fun name mem other mem' same => apart mem (List.mem_of_mem_drop (same ▸ mem'))⟩
  refine List.nodup_append.2 ⟨by decide, behind, fun name mem other mem' same => ?_⟩
  subst same
  rcases List.mem_append.1 mem' with mem' | mem'
  · exact apart mem' (List.mem_of_mem_take mem)
  · exact absurd mem' ((by decide : ∀ name ∈ fixedNames.take 3, name ∉ fixedNames.drop 3) name mem)

end

/-! ## Identifiers that resolve -/

/-- Whether the identifiers of a statement that declares nothing resolve in a scope. -/
structure Resolved (known : String → Prop) (scope : List String) (s : Statement) : Prop where
  declared : s.declared = []
  uses : ∀ u ∈ s.uses scope, u.Resolves known

/-- The parameters of `create`. -/
def createScope (options : Options) : List String :=
  (createParams options).map Emission.Parameter.name

/-- Whether the identifiers of a draft resolve in the methods that it goes into. -/
structure ResolvedDraft (options : Options) (known : String → Prop) (x : Draft) : Prop where
  create : ∀ s ∈ x.create, Resolved known (createScope options) s
  update : ∀ s ∈ x.update, Resolved known [Vocabulary.changed] s
  destroy : ∀ s ∈ x.destroy, Resolved known [Vocabulary.target] s

section

variable {options : Options} {known : String → Prop}

namespace ResolvedDraft

theorem empty : ResolvedDraft options known .empty where
  create := List.forall_mem_nil _
  update := List.forall_mem_nil _
  destroy := List.forall_mem_nil _

theorem append {x y : Draft} (hx : ResolvedDraft options known x)
    (hy : ResolvedDraft options known y) : ResolvedDraft options known (x ++ y) where
  create := List.forall_mem_append.2 ⟨hx.create, hy.create⟩
  update := List.forall_mem_append.2 ⟨hx.update, hy.update⟩
  destroy := List.forall_mem_append.2 ⟨hx.destroy, hy.destroy⟩

end ResolvedDraft

theorem target_mem_createScope (options : Options) : Vocabulary.target ∈ createScope options :=
  List.mem_cons_self

theorem hydrate_mem_createScope (hydratable : options.hydratable = true) :
    Vocabulary.hydrate ∈ createScope options := by
  simp [createScope, createParams, hydratable]

/-- The target is a parameter of both `create` and `destroy`. -/
theorem resolves_parent {parent : String} (h : known parent ∨ parent = Vocabulary.target)
    {scope : List String} (mem : Vocabulary.target ∈ scope) :
    (Use.read parent scope).Resolves known := by
  rcases h with h | rfl
  · exact .inl h
  · exact .inr ⟨mem, by decide⟩

theorem resolves_hydrate (hydratable : options.hydratable = true) :
    (Use.read Vocabulary.hydrate (createScope options)).Resolves known :=
  .inr ⟨hydrate_mem_createScope hydratable, by decide⟩

theorem resolvedDraft_nodeDraft {place : Place} {node : String} {fresh : Expression}
    (parent : known place.parent ∨ place.parent = Vocabulary.target) (isKnown : known node)
    (made : ∀ u ∈ fresh.uses (createScope options), u.Resolves known) :
    ResolvedDraft options known (nodeDraft options place node fresh) := by
  have parentCreate := resolves_parent parent (target_mem_createScope options)
  have parentDestroy := resolves_parent parent (List.mem_cons_self (l := []))
  have self (scope : List String) : (Use.read node scope).Resolves known := .inl isKnown
  refine ⟨?_, List.forall_mem_nil _, ?_⟩
  · refine List.forall_mem_cons.2 ⟨⟨rfl, ?_⟩, List.forall_mem_singleton.2 ⟨?_, ?_⟩⟩
    · rw [uses_assignTo, uses_adoptOrCreate]
      refine List.forall_mem_cons.2 ⟨.inl isKnown, List.forall_mem_append.2 ⟨?_, made⟩⟩
      split
      · rename_i hydratable
        simp [resolves_hydrate hydratable, parentCreate]
      · exact List.forall_mem_nil _
    · unfold mount
      split <;> rfl
    · rw [uses_mount]
      refine List.forall_mem_append.2 ⟨?_, by simp [parentCreate, self]⟩
      split
      · rename_i hydratable
        simp [resolves_hydrate hydratable]
      · exact List.forall_mem_nil _
  · refine List.forall_mem_singleton.2 ⟨rfl, ?_⟩
    simp [Expression.allUses, Expression.uses, parentDestroy, self]

theorem allUses_texts (scope : List String) (values : List String) :
    Expression.allUses scope (values.map .text) = [] := by
  induction values with
  | nil => rfl
  | cons value rest ih => rw [List.map_cons, Expression.allUses, ih]; rfl

/-- A test whether names are among the changed ones uses the changed names and its own parameter. -/
theorem isLocal_changedTest (names : List String) {scope : List String}
    (mem : Vocabulary.changed ∈ scope) :
    ∀ u ∈ (changedTest names Vocabulary.changed).uses scope, u.IsLocal := by
  have own : parameterName Vocabulary.name = Vocabulary.name := by decide
  have changed (inner : List String) :
      (Use.read Vocabulary.changed (inner ++ scope)).IsLocal :=
    ⟨List.mem_append_right _ mem, by decide⟩
  have parameter : (Use.read Vocabulary.name (Vocabulary.name :: scope)).IsLocal :=
    ⟨List.mem_cons_self, by decide⟩
  unfold changedTest
  split
  · simpa [Expression.callMethod, Expression.uses, Expression.allUses] using changed []
  · simpa [Expression.callMethod, Expression.texts, Expression.uses, Expression.allUses,
      allUses_texts, own] using ⟨changed [Vocabulary.name], parameter⟩

variable {analysis : Analysis}

theorem resolved_updateRule (e : Script.Expression) {apply : Statement}
    (applied : Resolved known [Vocabulary.changed] apply) :
    ∀ s ∈ updateRule analysis e apply, Resolved known [Vocabulary.changed] s := by
  unfold updateRule
  split
  · exact List.forall_mem_nil _
  · refine List.forall_mem_singleton.2 ⟨rfl, ?_⟩
    rw [Statement.uses, Statement.allUses, Statement.allUses, List.append_nil]
    exact List.forall_mem_append.2
      ⟨fun u mem => (isLocal_changedTest _ List.mem_cons_self u mem).resolves, applied.uses⟩

theorem resolved_setAttribute {node : String} (isKnown : known node) (scope : List String)
    (name : String) (e : Script.Expression) :
    Resolved known scope (invoke node "setAttribute" [.text name, embed e]) := by
  refine ⟨rfl, ?_⟩
  simp [Expression.allUses, Expression.uses, Use.Resolves, isKnown]

/-- The identifiers in the pieces of a draft resolve. -/
theorem resolvedPieces (document : known "document") :
    DraftPieces options analysis known known (ResolvedDraft options known) where
  empty := .empty
  append := .append
  node place node method content parent isKnown isContent := by
    refine resolvedDraft_nodeDraft parent isKnown ?_
    rw [uses_documentCall]
    refine List.forall_mem_cons.2 ⟨.inl document, ?_⟩
    rcases isContent with ⟨value, rfl⟩ | ⟨e, rfl⟩
    · exact List.forall_mem_nil _
    · simp [Use.Resolves]
  rule node e e' isKnown := by
    refine ⟨List.forall_mem_nil _, resolved_updateRule e ⟨rfl, ?_⟩, List.forall_mem_nil _⟩
    simp [setData, Statement.uses, Expression.uses, Use.Resolves, isKnown]
  value node a isKnown :=
    ⟨List.forall_mem_singleton.2 (resolved_setAttribute isKnown _ _ _),
      resolved_updateRule _ (resolved_setAttribute isKnown _ _ _), List.forall_mem_nil _⟩
  store binding e isKnown := by
    refine ⟨List.forall_mem_singleton.2 ⟨rfl, ?_⟩, List.forall_mem_nil _, List.forall_mem_nil _⟩
    simp [Use.Resolves, isKnown]
  listener node event handler isKnown isKnown' := by
    refine ⟨List.forall_mem_singleton.2 ⟨rfl, ?_⟩, List.forall_mem_nil _,
      List.forall_mem_singleton.2 ⟨rfl, ?_⟩⟩ <;>
      simp [Expression.allUses, Expression.uses, Use.Resolves, isKnown, or_self_iff.1 isKnown']

end

/-! ## Modules -/

section

variable {known : String → Prop}

/-- The guarded reactive declarations use the parameters of their function. -/
theorem isLocal_recomputation (analysis : Analysis) :
    ∀ u ∈ (recomputation analysis).uses [], u.IsLocal := by
  -- the default value of the second parameter is no part of its name
  have params : [Vocabulary.changed, Vocabulary.initial ++ " = false"].map parameterName ++ [] =
      [Vocabulary.changed, Vocabulary.initial] := by decide
  have changed : (Use.read Vocabulary.changed [Vocabulary.changed, Vocabulary.initial]).IsLocal :=
    ⟨List.mem_cons_self, by decide⟩
  have initial : (Use.read Vocabulary.initial [Vocabulary.changed, Vocabulary.initial]).IsLocal :=
    ⟨by simp, by decide⟩
  rw [recomputation, Statement.uses, params, guardedRecomputation,
    Statement.allUses_of_declared (by simp [ReactiveDeclaration.guarded, Statement.declared])]
  simp only [List.mem_flatMap, List.mem_map]
  rintro u ⟨_, ⟨d, -, rfl⟩, mem⟩
  rw [ReactiveDeclaration.guarded, Statement.uses, List.mem_append] at mem
  rcases mem with mem | mem
  · unfold ReactiveDeclaration.test at mem
    split at mem
    · obtain rfl := List.mem_singleton.1 mem
      exact initial
    · rw [Expression.uses, Expression.uses, List.singleton_append, List.mem_cons] at mem
      rcases mem with rfl | mem
      · exact initial
      · exact isLocal_changedTest _ List.mem_cons_self u mem
  · rw [Statement.allUses_of_declared (by simp [ReactiveDeclaration.code, Statement.declared])]
      at mem
    simp only [List.flatMap_cons, List.mem_append, List.mem_flatMap, List.mem_map] at mem
    rcases mem with mem | ⟨_, ⟨name, -, rfl⟩, mem⟩
    · obtain rfl := List.mem_singleton.1 mem
      trivial
    · obtain rfl := List.mem_singleton.1 mem
      exact changed

theorem resolves_dispatcher : ∀ u ∈ dispatcher.uses [], u.Resolves (· ∈ fixedNames) := by decide

theorem resolves_createParams (options : Options) :
    ∀ u ∈ Emission.Parameter.allUses [] (createParams options), u.Resolves known := by
  have hydrating : ∀ u ∈ Emission.Parameter.allUses [] (createParams { hydratable := true }),
      u.Resolves fun _ => False := by decide
  intro u mem
  cases hydratable : options.hydratable with
  | false => simp [createParams, hydratable, Emission.Parameter.allUses] at mem
  | true =>
    refine (hydrating u ?_).mono fun _ => False.elim
    simpa [createParams, hydratable] using mem

/-- The identifiers in the methods resolve. -/
theorem resolves_lifecycle {options : Options} {draft : Draft}
    (resolved : ResolvedDraft options known draft) (mounted : known Vocabulary.mounted) :
    ∀ u ∈ (lifecycle options draft).uses [], u.Resolves known := by
  have body {scope : List String} {ss : List Statement} (all : ∀ s ∈ ss, Resolved known scope s) :
      ∀ u ∈ Statement.allUses scope ss, u.Resolves known := by
    rw [Statement.allUses_of_declared fun s mem => (all s mem).declared]
    intro u mem
    obtain ⟨s, mem, used⟩ := List.mem_flatMap.1 mem
    exact (all s mem).uses u used
  have flag (scope : List String) (value : Bool) :
      ∀ s ∈ [assignTo Vocabulary.mounted (.boolean value)], Resolved known scope s := by
    refine List.forall_mem_singleton.2 ⟨rfl, ?_⟩
    simp [Expression.uses, Use.Resolves, mounted]
  have create := body (List.forall_mem_append.2 ⟨resolved.create, flag _ true⟩)
  have destroy := body (List.forall_mem_append.2
    ⟨fun s mem => resolved.destroy s (List.mem_reverse.1 mem), flag _ false⟩)
  simp only [lifecycle, Expression.uses, Emission.Method.allUses, Emission.Method.uses,
    List.map_cons, List.map_nil, List.append_nil, List.forall_mem_append]
  exact ⟨⟨resolves_createParams options, create⟩, ⟨List.forall_mem_nil _, body resolved.update⟩,
    List.forall_mem_nil _, destroy⟩

end

section

variable (component : Component) (analysis : Analysis) (options : Options)

/-- Whether a name is known throughout a module: declared by the module itself, the document, or a
handler that is a plain name. -/
def IsKnown (name : String) : Prop :=
  name ∈ ownNames (documentDraft options analysis component.html) ∨ name = "document" ∨
    name ∈ Fragment.allPlainHandlers options.eventMarker component.html

/-- The identifiers of a client module resolve. -/
theorem resolves_generate :
    ∀ s ∈ (generate component analysis options).code.body, ∀ u ∈ s.uses [],
      u.Resolves (IsKnown component analysis options) := by
  have fixed : ∀ name ∈ fixedNames, IsKnown component analysis options name :=
    fun name mem => .inl (mem_ownNames_iff.2 (.inr mem))
  have resolved : ResolvedDraft options (IsKnown component analysis options)
      (documentDraft options analysis component.html) :=
    (resolvedPieces (.inr (.inl rfl))).documentDraft component.html
      (fun name mem => .inl (mem_ownNames_iff.2 (.inl mem))) fun name mem => .inr (.inr mem)
  -- the statements of the module one kind after the other, in the order in which they stand
  have unset (names : List String) : ∀ s ∈ names.map fun name => Statement.declare name none,
      ∀ u ∈ s.uses [], u.Resolves (IsKnown component analysis options) := by
    simp [Statement.uses]
  have reads (name : String) (mem : name ∈ fixedNames) :
      ∀ u ∈ [Use.read name []], u.Resolves (IsKnown component analysis options) :=
    List.forall_mem_singleton.2 (.inl (fixed name mem))
  have writes (name : String) (mem : name ∈ fixedNames) :
      ∀ u ∈ [Use.write name []], u.Resolves (IsKnown component analysis options) :=
    List.forall_mem_singleton.2 (.inl (fixed name mem))
  have script : ∀ s ∈ embedScript (notifyScript analysis component.script),
      ∀ u ∈ s.uses [], u.Resolves (IsKnown component analysis options) := by
    unfold embedScript
    dsimp only
    split
    · exact List.forall_mem_nil _
    · exact List.forall_mem_singleton.2 (List.forall_mem_singleton.2 trivial)
  have first : ∀ s ∈ firstRecomputation analysis,
      ∀ u ∈ s.uses [], u.Resolves (IsKnown component analysis options) := by
    unfold firstRecomputation
    split
    · exact List.forall_mem_nil _
    · exact List.forall_mem_singleton.2 (reads _ (by decide))
  have constant : ∀ u ∈ ([] : List Use), u.Resolves (IsKnown component analysis options) :=
    List.forall_mem_nil _
  have none : ∀ s ∈ ([] : List Statement), ∀ u ∈ s.uses [],
      u.Resolves (IsKnown component analysis options) := List.forall_mem_nil _
  simp only [generate, undeclaredBindings, stateBindings, List.forall_mem_append,
    List.forall_mem_cons]
  refine ⟨⟨⟨⟨⟨unset _, ⟨constant, constant, constant, none⟩, unset _⟩, script⟩, ?_, ?_, none⟩,
    first⟩, writes _ (by decide), writes _ (by decide), ?_, reads _ (by decide), none⟩
  · exact fun u mem => (isLocal_recomputation analysis u mem).resolves
  · exact fun u mem => (resolves_dispatcher u mem).mono fixed
  · exact resolves_lifecycle resolved (fixed _ (by decide))

/-- What a client module declares: the names that its reactive declarations assign and its script
does not declare, and the module's own names. -/
theorem declared_generate :
    (generate component analysis options).code.body.flatMap Statement.declared =
      analysis.undeclaredAssignees ++ ownNames (documentDraft options analysis component.html) := by
  have unset (names : List String) :
      (names.map fun name => Statement.declare name none).flatMap Statement.declared = names := by
    simp [List.flatMap_map, Statement.declared]
  have script : (embedScript (notifyScript analysis component.script)).flatMap
      Statement.declared = [] := by
    unfold embedScript
    dsimp only
    split <;> rfl
  have first : (firstRecomputation analysis).flatMap Statement.declared = [] := by
    unfold firstRecomputation
    split <;> rfl
  simp only [generate, undeclaredBindings, stateBindings, List.flatMap_append, unset, script, first]
  simp [Statement.declared, recomputation, dispatcher, assignTo, ownNames, fixedNames]

theorem mem_undeclaredAssignees_iff {name : String} :
    name ∈ analysis.undeclaredAssignees ↔
      (∃ d ∈ analysis.declarations, name ∈ d.assignees) ∧ name ∉ analysis.rootVariables := by
  rw [Analysis.undeclaredAssignees, distinctNames, mem_addNames]
  simp [NameSet.contains]

end

/-! ## Hygiene -/

section

variable (names : String → List String) (component : Component) (analysis : Analysis)
  (options : Options)

/-- Whether no name of a script starts with two dollar signs: none that it declares or assigns, no
handler, and none in the code of template expressions, except for the function that notifications
call. -/
structure PlainScript : Prop where
  root : ∀ name ∈ analysis.rootVariables, ¬IsGenerated name
  assigned : ∀ d ∈ analysis.declarations, ∀ name ∈ d.assignees, ¬IsGenerated name
  handlers : ∀ name ∈ Fragment.allPlainHandlers options.eventMarker component.html,
    ¬IsGenerated name
  texts : ∀ e ∈ Fragment.allExpressions component.html,
    ∀ name ∈ names (scriptText (notifyTemplate analysis e)),
      IsGenerated name → name = Vocabulary.update

/-- What makes the generated names of a client module hygienic. -/
structure Hygienic : Prop where
  /-- The module declares what the script assigns without declaring it, and names of its own. -/
  declared : (generate component analysis options).code.body.flatMap Statement.declared =
    analysis.undeclaredAssignees ++ ownNames (documentDraft options analysis component.html)
  generated : ∀ name ∈ ownNames (documentDraft options analysis component.html), IsGenerated name
  /-- Nothing is declared twice. -/
  distinct : ((generate component analysis options).code.body.flatMap Statement.declared).Nodup
  /-- Nothing is declared that the script declares. -/
  fresh : ∀ name ∈ (generate component analysis options).code.body.flatMap Statement.declared,
    name ∉ analysis.rootVariables
  /-- Outside script text, identifiers are names of the module, the document, plain handlers, or
  generated names of parameters and locals in scope. -/
  resolved : ∀ s ∈ (generate component analysis options).code.body, ∀ u ∈ s.uses [],
    u.Resolves (IsKnown component analysis options)
  /-- Each binding is assigned once in `create`, in the order of the declarations. -/
  assigned : (methodBody "create" (generate component analysis options).code).flatMap
    Statement.writes = (documentDraft options analysis component.html).bindings ++
      [Vocabulary.mounted]
  /-- And before any statement that reads it. -/
  before : ∀ before s after,
    methodBody "create" (generate component analysis options).code = before ++ s :: after →
      ∀ name ∈ s.reads names, name ∈ (documentDraft options analysis component.html).bindings →
        name ∈ before.flatMap Statement.writes

variable {names component analysis options}

/-- No script text in a template reads a binding. -/
theorem PlainScript.readsNoBinding (plain : PlainScript names component analysis options) :
    ∀ e ∈ Fragment.allExpressions component.html, ReadsNoBinding analysis names e := by
  intro e mem name read
  by_cases generated : IsGenerated name
  · rw [plain.texts e mem name read generated]
    exact older_of_not_mem (by decide) 0
  · exact older_of_not_isGenerated generated 0

/-- **Generated names are hygienic.** If no name of the script starts with two dollar signs, all
that a client module declares is declared once and not by the script, and its own names start with
two dollar signs, whatever elements and events are called. Outside script text, every identifier is
one of these names, the document, a handler that is a plain name, or a generated parameter or local
in scope. In `create` each binding of a node or handler is assigned once, and before any statement
that reads it, where script text may read any names but the generated ones. -/
theorem generated_names_hygienic (plain : PlainScript names component analysis options) :
    Hygienic names component analysis options where
  declared := declared_generate component analysis options
  generated name mem := isGenerated_of_mem_ownNames options analysis component.html mem
  distinct := by
    rw [declared_generate]
    refine List.nodup_append.2 ⟨nodup_addNames List.nodup_nil, nodup_ownNames _ _ _, ?_⟩
    rintro name mem own mem' rfl
    obtain ⟨⟨d, declares, mem⟩, -⟩ := (mem_undeclaredAssignees_iff analysis).1 mem
    exact plain.assigned d declares name mem
      (isGenerated_of_mem_ownNames options analysis component.html mem')
  fresh := by
    rw [declared_generate]
    refine List.forall_mem_append.2 ⟨fun name mem => ?_, fun name mem root => ?_⟩
    · exact ((mem_undeclaredAssignees_iff analysis).1 mem).2
    · exact plain.root name root (isGenerated_of_mem_ownNames options analysis component.html mem)
  resolved := resolves_generate component analysis options
  assigned := by
    obtain ⟨last, order⟩ := assignsInOrder_documentDraft plain.readsNoBinding plain.handlers
    exact flatMap_writes_create order
  before _ _ _ split _ read binding := by
    obtain ⟨last, order⟩ := assignsInOrder_documentDraft plain.readsNoBinding plain.handlers
    exact mem_writes_of_reads_create order split read binding

end

/-- The words of a text of code. -/
def words (code : String) : List String :=
  ((Script.scanItems (code.length + 1) [] code.toList).getD []).filterMap fun item =>
    match item.kind with
    | .word text _ => some text
    | _ => none

/-- Two elements whose names differ only in characters that are replaced, a handler that is a plain
name, one that is not, and a reactive declaration of a new name. -/
def lookalikes : Component where
  html :=
    [.element "a-b" [⟨"on:c", .identifier "h"⟩, ⟨"on:c", .verbatim "() => h(n)" ["h", "n"]⟩]
      [.expression (.assignment "=" (.identifier "n") (.verbatim "1" []))] 0,
     .element "a.b" [] [] 0]
  script :=
    [.declaration .lexical [⟨.identifier "n", none⟩, ⟨.identifier "h", none⟩],
     .labeled "$" (.expression (.assignment "=" (.identifier "m") (.identifier "n")))]

theorem generated_names_hygienic_lookalikes :
    PlainScript words (lookalikes.analyze "on:").component (lookalikes.analyze "on:").analysis {} ∧
      (documentDraft {} (lookalikes.analyze "on:").analysis lookalikes.html).bindings =
        ["$$a_b_1", "$$a_b_c_2", "$$t_3", "$$a_b_4"] ∧
      Hygienic words (lookalikes.analyze "on:").component (lookalikes.analyze "on:").analysis
        {} := by
  have root : ∀ name ∈ (lookalikes.analyze "on:").analysis.rootVariables.toList,
      ¬IsGenerated name := by decide +kernel
  have plain : PlainScript words (lookalikes.analyze "on:").component
      (lookalikes.analyze "on:").analysis {} :=
    ⟨root, by decide +kernel, by decide +kernel, by decide +kernel⟩
  exact ⟨plain, by decide +kernel, generated_names_hygienic plain⟩

end ReactiveMarkup.Client
