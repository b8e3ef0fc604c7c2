import ReactiveMarkup.Proofs.GeneratedName
import ReactiveMarkup.Proofs.Unmounting
import ReactiveMarkup.Proofs.UpdateRules

/-!
# Listeners that are removed

A listener is removed only by the function that was added. The method `create` adds functions by
names, and `destroy` reads the same names again; so the question is whether their values can differ.
A run goes from values of the names to others: statements change what they assign, and script code
can change the names that the analysis says change. Nodes and stored handlers are assigned once, in
`create`, before they are used (`AssignsInOrder`), so they keep their values. A handler that is a
plain name of the script keeps its value just if the name does not change (`removesAdded_iff`).
-/

namespace ReactiveMarkup.Client

open Emission (Statement Expression Use Module)
open Document (Older undo? Mirrored mirrored_fragmentsDraft)

/-! ## Listeners -/

/-- A call that adds or removes a listener, with the names of the node and of the handler. -/
structure ListenerCall where
  node : String
  event : String
  handler : String
deriving DecidableEq, Repr

/-- The call of a method that adds or removes listeners. -/
def listenerCall? (method : String) : Statement → Option ListenerCall
  | .expression (.call (.member (.identifier node) called)
      [.text event, .identifier handler]) =>
    if called = method then some ⟨node, event, handler⟩ else none
  | _ => none

/-- The listeners that some statements add. -/
def additions (ss : List Statement) : List ListenerCall :=
  ss.filterMap (listenerCall? "addEventListener")

/-- The listeners that some statements remove. -/
def removals (ss : List Statement) : List ListenerCall :=
  ss.filterMap (listenerCall? "removeEventListener")

/-! ## Runs -/

/-- What a listener is: on which node, for which event, and which function. -/
structure Listener (V : Type) where
  node : V
  event : String
  function : V
deriving DecidableEq

/-- What the names of a call stand for. -/
def ListenerCall.listener {V : Type} (call : ListenerCall) (values : String → V) : Listener V :=
  ⟨values call.node, call.event, values call.handler⟩

section

variable {V : Type}

/-- A run of some statements, from values of the names to others, with the listeners that calls of a
method are given. A statement changes what it assigns; the script code in it, and whatever else runs
meanwhile, can change names that change. -/
inductive Run (changing : String → Prop) (method : String) :
    List Statement → (String → V) → List (Listener V) → (String → V) → Prop
  | nil {values : String → V} : Run changing method [] values [] values
  | cons {s : Statement} {rest : List Statement} {values values' last : String → V}
      {log : List (Listener V)}
      (step : ∀ name, values' name ≠ values name → changing name ∨ name ∈ s.writes)
      (behind : Run changing method rest values' log last) :
      Run changing method (s :: rest) values
        ((listenerCall? method s).toList.map (·.listener values) ++ log) last

namespace Run

variable {changing : String → Prop} {method : String} {ss : List Statement}
  {values last : String → V} {log : List (Listener V)}

/-- What is neither assigned nor changes keeps its value. -/
theorem value_eq (run : Run changing method ss values log last) {name : String}
    (kept : ¬changing name) (unassigned : name ∉ ss.flatMap Statement.writes) :
    last name = values name := by
  induction run with
  | nil => rfl
  | cons step _ ih =>
    rw [List.flatMap_cons, List.mem_append, not_or] at unassigned
    rw [ih unassigned.2]
    by_contra ne
    exact (step name ne).elim kept unassigned.1

/-- The listeners of a run are those that the names stand for in the end, if none of these names is
assigned or changes from its call on. -/
theorem log_eq (run : Run changing method ss values log last)
    (kept : ∀ before s after call, ss = before ++ s :: after →
      listenerCall? method s = some call → ∀ name ∈ [call.node, call.handler],
        ¬changing name ∧ name ∉ (s :: after).flatMap Statement.writes) :
    log = (ss.filterMap (listenerCall? method)).map (·.listener last) := by
  induction run with
  | nil => rfl
  | @cons s rest values values' last log step behind ih =>
    have others := ih fun before s' after call split =>
      kept (s :: before) s' after call (congrArg (s :: ·) split)
    rw [others]
    cases called : listenerCall? method s with
    | none => rw [List.filterMap_cons_none called]; rfl
    | some call =>
      have same : ∀ name ∈ [call.node, call.handler], values name = last name := by
        intro name mem
        obtain ⟨still, unassigned⟩ := kept [] s rest call rfl called name mem
        exact ((Run.cons step behind).value_eq still unassigned).symm
      rw [List.filterMap_cons_some called]
      simp [ListenerCall.listener, same]

end Run

end

/-! ## The statements of `create` -/

/-- A statement of `create`: it assigns a fresh or adopted node or the value of a script expression,
mounts a node, sets an attribute or a flag, or adds a listener. The node of a listener is bound, and
its handler is bound or a name of the script. -/
inductive Builds (options : Options) (bound named : String → Prop) : Statement → Prop
  | node (place : Place) (binding method : String) (argument : Expression) :
    Builds options bound named
      (assignTo binding (adoptOrCreate options place (documentCall method argument)))
  | store (binding : String) (e : Script.Expression) :
    Builds options bound named (assignTo binding (embed e))
  | mount (place : Place) (node : String) : Builds options bound named (mount options place node)
  | set (node name : String) (e : Script.Expression) :
    Builds options bound named (invoke node "setAttribute" [.text name, embed e])
  | flag (name : String) (value : Bool) :
    Builds options bound named (assignTo name (.boolean value))
  | listen {node handler : String} (event : String) (isBound : bound node)
    (origin : bound handler ∨ named handler) :
    Builds options bound named
      (invoke node "addEventListener" [.text event, .identifier handler])

section

variable {options : Options} {analysis : Analysis} {bound named : String → Prop}

/-- The pieces of a draft build a document. -/
theorem buildsPieces : DraftPieces options analysis bound named fun x =>
    ∀ s ∈ x.create, Builds options bound named s where
  empty := List.forall_mem_nil _
  append hx hy := List.forall_mem_append.2 ⟨hx, hy⟩
  node place node method content _ _ _ := List.forall_mem_cons.2
    ⟨.node place node method content, List.forall_mem_singleton.2 (.mount place node)⟩
  rule _ _ _ _ := List.forall_mem_nil _
  value node a _ := List.forall_mem_singleton.2 (.set node a.name _)
  store binding e _ := List.forall_mem_singleton.2 (.store binding e)
  listener _ event _ isBound origin := List.forall_mem_singleton.2
    (.listen event isBound origin)

/-- A listener that is added is the one that undoing the statement removes. -/
theorem Builds.listenerCall?_undo {s : Statement} (builds : Builds options bound named s) :
    (undo? s).bind (listenerCall? "removeEventListener") = listenerCall? "addEventListener" s := by
  cases builds with
  | node place binding method argument => rfl
  | store binding e => rfl
  | mount place node =>
    unfold Client.mount
    split <;> rfl
  | set node name e =>
    rw [embed_eq]
    rfl
  | flag name value => rfl
  | listen event isBound origin => rfl

end

/-! ## What runs between `create` and `destroy` -/

/-- Whether a statement declares a function. -/
def isFunction : Statement → Bool
  | .function .. => true
  | _ => false

/-- What can run between `create` and `destroy`: the functions of a module and its method
`update`. -/
def meanwhile (m : Module) : List Statement :=
  m.body.filter isFunction ++ methodBody "update" m

section

variable {analysis : Analysis}

theorem writes_changedTest (names : List String) (changed : String) (scope : List String) :
    ((changedTest names changed).uses scope).flatMap Use.writes = [] := by
  unfold changedTest
  split <;>
    simp [Expression.callMethod, Expression.texts, Expression.uses, Expression.allUses,
      allUses_texts, Use.writes]

theorem writes_updateRule (e : Script.Expression) {apply : Statement} (plain : apply.writes = []) :
    ∀ s ∈ updateRule analysis e apply, s.writes = [] := by
  unfold updateRule
  split
  · exact List.forall_mem_nil _
  · refine List.forall_mem_singleton.2 ?_
    rw [Statement.writes, Statement.uses, Statement.allUses, Statement.allUses, List.append_nil,
      List.flatMap_append, writes_changedTest, List.nil_append]
    exact plain

/-- Updating a document and taking it down assign no names. -/
theorem unassigningPieces {options : Options} :
    DraftPieces options analysis (fun _ => True) (fun _ => True) fun x =>
      ∀ s ∈ x.update ++ x.destroy, s.writes = [] where
  empty := List.forall_mem_nil _
  append hx hy := by
    rw [List.forall_mem_append] at hx hy
    exact List.forall_mem_append.2 ⟨List.forall_mem_append.2 ⟨hx.1, hy.1⟩,
      List.forall_mem_append.2 ⟨hx.2, hy.2⟩⟩
  node _ _ _ _ _ _ _ := List.forall_mem_singleton.2 rfl
  rule node e e' _ := by
    refine List.forall_mem_append.2 ⟨writes_updateRule e ?_, List.forall_mem_nil _⟩
    simp [Statement.writes, setData, Statement.uses, Expression.uses, Use.writes]
  value node a _ := by
    refine List.forall_mem_append.2 ⟨writes_updateRule a.value ?_, List.forall_mem_nil _⟩
    simp [Statement.writes, Expression.allUses, Expression.uses, Use.writes]
  store _ _ _ := List.forall_mem_nil _
  listener _ _ _ _ _ := List.forall_mem_singleton.2 rfl

theorem writes_recomputation (analysis : Analysis) : (recomputation analysis).writes = [] :=
  List.flatMap_eq_nil_iff.2 fun u mem => (isLocal_recomputation analysis u mem).writes_eq

theorem writes_dispatcher : ∀ name ∈ dispatcher.writes, name ∈ fixedNames := by decide

theorem functions_generate (component : Component) (analysis : Analysis) (options : Options) :
    (generate component analysis options).code.body.filter isFunction =
      [recomputation analysis, dispatcher] := by
  have script : (embedScript (notifyScript analysis component.script)).filter isFunction = [] := by
    unfold embedScript
    dsimp only
    split <;> rfl
  have first : (firstRecomputation analysis).filter isFunction = [] := by
    unfold firstRecomputation
    split <;> rfl
  simp only [generate, undeclaredBindings, stateBindings, List.filter_append, script, first]
  simp [isFunction, recomputation, dispatcher, assignTo, List.filter_map, Function.comp_def]

end

section

variable (component : Component) (analysis : Analysis) (options : Options)

theorem writes_documentDraft (html : List Fragment) :
    ∀ s ∈ (documentDraft options analysis html).update ++
      (documentDraft options analysis html).destroy, s.writes = [] :=
  unassigningPieces.documentDraft html (fun _ _ => trivial) fun _ _ => trivial

theorem builds_documentDraft (html : List Fragment) :
    ∀ s ∈ (documentDraft options analysis html).create,
      Builds options (· ∈ (documentDraft options analysis html).bindings)
        (· ∈ Fragment.allPlainHandlers options.eventMarker html) s :=
  buildsPieces.documentDraft html (fun _ => id) fun _ => id

theorem writes_meanwhile :
    ∀ name ∈ (meanwhile (generate component analysis options).code).flatMap Statement.writes,
      name ∈ fixedNames := by
  have updates := writes_documentDraft analysis options component.html
  have none : (documentDraft options analysis component.html).update.flatMap Statement.writes =
      [] := List.flatMap_eq_nil_iff.2 (List.forall_mem_append.1 updates).1
  rw [meanwhile, functions_generate, methodBody_update, List.flatMap_append, none, List.append_nil,
    List.flatMap_cons, writes_recomputation, List.nil_append, List.flatMap_cons, List.flatMap_nil,
    List.append_nil]
  exact writes_dispatcher

theorem writes_destroy :
    (methodBody "destroy" (generate component analysis options).code).flatMap Statement.writes =
      [Vocabulary.mounted] := by
  have destroys := writes_documentDraft analysis options component.html
  have none : (documentDraft options analysis component.html).destroy.reverse.flatMap
      Statement.writes = [] :=
    List.flatMap_eq_nil_iff.2 fun s mem =>
      (List.forall_mem_append.1 destroys).2 s (List.mem_reverse.1 mem)
  rw [methodBody_destroy, List.flatMap_append, none]
  rfl

/-- What the statements of `create` do. -/
theorem builds_create :
    ∀ s ∈ methodBody "create" (generate component analysis options).code,
      Builds options (· ∈ (documentDraft options analysis component.html).bindings)
        (· ∈ Fragment.allPlainHandlers options.eventMarker component.html) s := by
  rw [methodBody_create]
  exact List.forall_mem_append.2
    ⟨builds_documentDraft analysis options component.html,
      List.forall_mem_singleton.2 (.flag _ _)⟩

/-- The listeners that are removed are those that were added, in reverse order. -/
theorem removals_destroy :
    removals (methodBody "destroy" (generate component analysis options).code) =
      (additions (methodBody "create" (generate component analysis options).code)).reverse := by
  have builds := builds_documentDraft analysis options component.html
  have mirrored : Mirrored (documentDraft options analysis component.html) :=
    mirrored_fragmentsDraft options analysis component.html _ 0
  have added : removals (documentDraft options analysis component.html).destroy =
      additions (documentDraft options analysis component.html).create := by
    rw [removals, ← mirrored, List.filterMap_filterMap]
    exact List.filterMap_congr fun s mem => (builds s mem).listenerCall?_undo
  have flag (method : String) (value : Bool) :
      [assignTo Vocabulary.mounted (.boolean value)].filterMap (listenerCall? method) = [] := rfl
  rw [removals, additions] at added
  rw [methodBody_destroy, methodBody_create, removals, additions, List.filterMap_append, flag,
    List.append_nil, List.filterMap_append, flag, List.append_nil, List.filterMap_reverse, added]

end

/-! ## Handlers that are plain names -/

/-- The handlers of the listeners that some statements add. -/
def addedHandlers (ss : List Statement) : List String :=
  (additions ss).map ListenerCall.handler

theorem addedHandlers_append (ss ss' : List Statement) :
    addedHandlers (ss ++ ss') = addedHandlers ss ++ addedHandlers ss' := by
  rw [addedHandlers, additions, List.filterMap_append, List.map_append]
  rfl

section

variable (options : Options) (analysis : Analysis)

/-- A handler that is a plain name is added by this name. -/
theorem addedHandlers_eventDraft {a : Attribute} {name : String}
    (plain : a.value = .identifier name) (element node event : String) (count : Nat) :
    addedHandlers (eventDraft analysis element node event a count).1.create = [name] := by
  have same : notifyTemplate analysis a.value = .identifier name := by
    rw [plain]
    exact notifyExpression_identifier _ _ _ name
  simp only [eventDraft, same]
  rfl

theorem sublist_addedHandlers_attributesDraft (element node : String) (attributes : List Attribute)
    (count : Nat) :
    (attributes.filterMap (Attribute.plainHandler? options.eventMarker)).Sublist (addedHandlers
      (attributesDraft options analysis element node attributes count).1.create) := by
  induction attributes generalizing count with
  | nil => exact List.Sublist.refl _
  | cons a rest ih =>
    rw [attributesDraft, create_append, addedHandlers_append]
    cases plain : a.plainHandler? options.eventMarker with
    | none =>
      rw [List.filterMap_cons_none plain]
      exact (ih _).trans (List.sublist_append_right _ _)
    | some name =>
      rw [List.filterMap_cons_some plain]
      unfold Attribute.plainHandler? at plain
      split at plain
      · rename_i event given listens value
        obtain rfl := Option.some.inj plain
        simp only [listens, addedHandlers_eventDraft analysis value]
        exact (ih _).cons_cons _
      · cases plain

/-- Each handler that is a plain name is added, in source order. -/
theorem sublist_addedHandlers_fragmentsDraft (fs : List Fragment) (place : Place) (count : Nat) :
    (Fragment.allPlainHandlers options.eventMarker fs).Sublist
      (addedHandlers (fragmentsDraft options analysis place count fs).1.create) := by
  induction fs using Fragment.induction generalizing place count with
  | nil => exact List.Sublist.refl _
  | cons f rest inner behind =>
    rw [fragmentsDraft, create_append, addedHandlers_append, Fragment.allPlainHandlers]
    refine List.Sublist.append ?_ (behind _ _)
    cases f with
    | element name attributes children offset =>
      rw [fragmentDraft, create_append, create_append, addedHandlers_append, addedHandlers_append,
        Fragment.plainHandlers, List.append_assoc]
      refine List.Sublist.trans (List.Sublist.append ?_ (inner _ _)) (List.sublist_append_right _ _)
      exact sublist_addedHandlers_attributesDraft options analysis name _ attributes _
    | text value => exact List.nil_sublist _
    | expression e => exact List.nil_sublist _

end

/-! ## Removing what was added -/

/-- A run without any change. -/
theorem Run.unchanged {V : Type} {changing : String → Prop} {method : String}
    (ss : List Statement) (values : String → V) :
    Run changing method ss values
      ((ss.filterMap (listenerCall? method)).map (·.listener values)) values := by
  induction ss with
  | nil => exact .nil
  | cons s rest ih =>
    have run : Run changing method (s :: rest) values _ values :=
      .cons (fun name ne => absurd rfl ne) ih
    cases called : listenerCall? method s with
    | none => simpa [called] using run
    | some call => simpa [called] using run

theorem Builds.of_listenerCall? {options : Options} {bound named : String → Prop} {s : Statement}
    {call : ListenerCall} (builds : Builds options bound named s)
    (called : listenerCall? "addEventListener" s = some call) :
    bound call.node ∧ (bound call.handler ∨ named call.handler) ∧
      ∀ names, call.node ∈ s.reads names ∧ call.handler ∈ s.reads names := by
  cases builds with
  | listen event isBound origin =>
    obtain rfl := Option.some.inj called
    refine ⟨isBound, origin, fun names => ?_⟩
    simp [Statement.reads, Expression.allUses, Expression.uses, Use.reads]
  | mount place node =>
    unfold Client.mount at called
    split at called <;> cases called
  | set node name e =>
    rw [embed_eq] at called
    cases called
  | _ => cases called

section

variable {component : Component} {analysis : Analysis} {options : Options}

/-- Whether a name is bound by the document and assigned exactly once in `create`, before some of
its statements. -/
def AssignedOnce (component : Component) (analysis : Analysis) (options : Options)
    (before : List Statement) (name : String) : Prop :=
  name ∈ (documentDraft options analysis component.html).bindings ∧
    name ∈ before.flatMap Statement.writes ∧
    ((methodBody "create" (generate component analysis options).code).flatMap
      Statement.writes).count name = 1

/-- Whether `destroy` removes the listeners that `create` added, function by function, in all runs
of the two methods. Between them, what changes may change and what the module itself assigns. -/
def RemovesAdded (component : Component) (analysis : Analysis) (options : Options) : Prop :=
  ∀ (V : Type) (values₀ values₁ values₂ values₃ : String → V) (added removed : List (Listener V)),
    Run (· ∈ analysis.willChange) "addEventListener"
      (methodBody "create" (generate component analysis options).code) values₀ added values₁ →
    (∀ name, values₂ name ≠ values₁ name → name ∈ analysis.willChange ∨
      name ∈ (meanwhile (generate component analysis options).code).flatMap Statement.writes) →
    Run (· ∈ analysis.willChange) "removeEventListener"
      (methodBody "destroy" (generate component analysis options).code) values₂ removed values₃ →
    removed = added.reverse

/-- What is assigned once is not assigned again behind its assignment. -/
theorem AssignedOnce.not_mem_writes {before after : List Statement} {s : Statement}
    (split : methodBody "create" (generate component analysis options).code =
      before ++ s :: after)
    {name : String} (once : AssignedOnce component analysis options before name) :
    name ∉ (s :: after).flatMap Statement.writes := by
  obtain ⟨-, assigned, once⟩ := once
  rw [split, List.flatMap_append, List.count_append] at once
  have written := List.count_pos_iff.2 assigned
  exact List.count_eq_zero.1 (by omega)

variable
  (handlers : ∀ name ∈ Fragment.allPlainHandlers options.eventMarker component.html,
    ¬IsGenerated name)

include handlers

/-- Apart from what script code reads, the statements for a document assign its bindings in
order. -/
theorem assignsInOrder_markup (analysis : Analysis) :
    ∃ last, AssignsInOrder (fun _ => []) 0 last
      (documentDraft options analysis component.html).bindings
      (documentDraft options analysis component.html).create :=
  assignsInOrder_documentDraft (fun _ _ => List.forall_mem_nil _) handlers

theorem assignedOnce_of_reads {before after : List Statement} {s : Statement}
    (split : methodBody "create" (generate component analysis options).code =
      before ++ s :: after)
    {name : String} (read : name ∈ s.reads fun _ => [])
    (binding : name ∈ (documentDraft options analysis component.html).bindings) :
    AssignedOnce component analysis options before name := by
  obtain ⟨last, order⟩ := assignsInOrder_markup handlers analysis
  have nodup := nodup_bindings options analysis component.html
  have other : name ≠ Vocabulary.mounted := by
    rintro rfl
    exact not_mem_bindings_of_mem_fixedNames options analysis component.html (by decide) binding
  refine ⟨binding, mem_writes_of_reads_create order split read binding, ?_⟩
  rw [flatMap_writes_create order, List.count_append,
    List.count_eq_one_of_mem nodup binding, List.count_eq_zero.2 (by simpa using other)]

/-- The node of an added listener is assigned once, and so is the handler unless it is a plain
name. -/
theorem assignedOnce_of_listenerCall? {before after : List Statement} {s : Statement}
    (split : methodBody "create" (generate component analysis options).code =
      before ++ s :: after)
    {call : ListenerCall} (called : listenerCall? "addEventListener" s = some call) :
    AssignedOnce component analysis options before call.node ∧
      (AssignedOnce component analysis options before call.handler ∨
        call.handler ∈ Fragment.allPlainHandlers options.eventMarker component.html) := by
  have listed : s ∈ methodBody "create" (generate component analysis options).code :=
    split ▸ List.mem_append_right _ List.mem_cons_self
  obtain ⟨node, origin, reads⟩ :=
    (builds_create component analysis options s listed).of_listenerCall? called
  exact ⟨assignedOnce_of_reads handlers split (reads _).1 node,
    origin.imp_left (assignedOnce_of_reads handlers split (reads _).2)⟩

/-- What is assigned in `create` is generated. -/
theorem isGenerated_of_mem_writes_create {name : String}
    (mem : name ∈ (methodBody "create" (generate component analysis options).code).flatMap
      Statement.writes) : IsGenerated name := by
  obtain ⟨last, order⟩ := assignsInOrder_markup handlers analysis
  rw [flatMap_writes_create order, List.mem_append, List.mem_singleton] at mem
  rcases mem with mem | rfl
  · exact isGenerated_of_mem_bindings options analysis component.html mem
  · decide

/-- From where it is used on, the name of a node or handler of an added listener is not assigned any
more, neither in `create` nor later. -/
theorem unassigned_of_listenerCall? {before after : List Statement} {s : Statement}
    (split : methodBody "create" (generate component analysis options).code =
      before ++ s :: after)
    {call : ListenerCall} (called : listenerCall? "addEventListener" s = some call) :
    ∀ name ∈ [call.node, call.handler],
      name ∉ (s :: after).flatMap Statement.writes ∧ name ∉ fixedNames := by
  -- a node or a stored handler is assigned once, before; a handler that is a plain name never
  have stored {name : String} (once : AssignedOnce component analysis options before name) :
      name ∉ (s :: after).flatMap Statement.writes ∧ name ∉ fixedNames :=
    ⟨once.not_mem_writes split, fun fixed =>
      not_mem_bindings_of_mem_fixedNames options analysis component.html fixed once.1⟩
  have plain {name : String}
      (given : name ∈ Fragment.allPlainHandlers options.eventMarker component.html) :
      name ∉ (s :: after).flatMap Statement.writes ∧ name ∉ fixedNames := by
    refine ⟨fun mem => handlers name given ?_, fun mem => handlers name given ?_⟩
    · have assigned : name ∈ (methodBody "create"
          (generate component analysis options).code).flatMap Statement.writes := by
        rw [split, List.flatMap_append]
        exact List.mem_append_right _ mem
      exact isGenerated_of_mem_writes_create handlers assigned
    · exact isGenerated_of_mem_fixedNames name mem
  obtain ⟨node, origin⟩ := assignedOnce_of_listenerCall? handlers split called
  intro name mem
  rcases List.mem_pair.1 mem with rfl | rfl
  · exact stored node
  · exact origin.elim stored plain

/-- If no handler that is a plain name changes, the names of an added listener do not change
either. -/
theorem unchanging_of_listenerCall? (changes : ∀ name ∈ analysis.willChange, ¬IsGenerated name)
    (still : ∀ name ∈ Fragment.allPlainHandlers options.eventMarker component.html,
      name ∉ analysis.willChange)
    {before after : List Statement} {s : Statement}
    (split : methodBody "create" (generate component analysis options).code =
      before ++ s :: after)
    {call : ListenerCall} (called : listenerCall? "addEventListener" s = some call) :
    ∀ name ∈ [call.node, call.handler], name ∉ analysis.willChange := by
  have stored {name : String} (once : AssignedOnce component analysis options before name) :
      name ∉ analysis.willChange := fun mem =>
    changes name mem (isGenerated_of_mem_bindings options analysis component.html once.1)
  obtain ⟨node, origin⟩ := assignedOnce_of_listenerCall? handlers split called
  intro name mem
  rcases List.mem_pair.1 mem with rfl | rfl
  · exact stored node
  · exact origin.elim stored (still _)

/-- If no handler that is a plain name changes, the functions that were added are removed. -/
theorem removesAdded_of_unchanging
    (changes : ∀ name ∈ analysis.willChange, ¬IsGenerated name)
    (still : ∀ name ∈ Fragment.allPlainHandlers options.eventMarker component.html,
      name ∉ analysis.willChange) :
    RemovesAdded component analysis options := by
  intro V values₀ values₁ values₂ values₃ added removed created between destroyed
  -- the names of a listener neither change in the script nor are among those of the dispatcher
  have given : ∀ call ∈ additions (methodBody "create" (generate component analysis options).code),
      ∀ name ∈ [call.node, call.handler], name ∉ analysis.willChange ∧ name ∉ fixedNames := by
    intro call listed name mem
    obtain ⟨s, here, called⟩ := List.mem_filterMap.1 listed
    obtain ⟨before, after, split⟩ := List.append_of_mem here
    exact ⟨unchanging_of_listenerCall? handlers changes still split called name mem,
      (unassigned_of_listenerCall? handlers split called name mem).2⟩
  have unassigned {name : String} (other : name ∉ fixedNames) :
      name ∉ (methodBody "destroy" (generate component analysis options).code).flatMap
        Statement.writes := by
    rw [writes_destroy, List.mem_singleton]
    rintro rfl
    exact other (by decide)
  -- so they have the same values when the listener is removed as when it was added
  have same {call : ListenerCall}
      (listed : call ∈ additions (methodBody "create" (generate component analysis options).code)) :
      ∀ name ∈ [call.node, call.handler], values₃ name = values₁ name := by
    intro name mem
    obtain ⟨kept, other⟩ := given call listed name mem
    have waited : values₂ name = values₁ name := by
      by_contra ne
      exact (between name ne).elim kept fun mem => other (writes_meanwhile _ _ _ name mem)
    rw [destroyed.value_eq kept (unassigned other), waited]
  have addedEnd : added =
      (additions (methodBody "create" (generate component analysis options).code)).map
        (·.listener values₁) :=
    created.log_eq fun before s after call split called name mem =>
      ⟨unchanging_of_listenerCall? handlers changes still split called name mem,
        (unassigned_of_listenerCall? handlers split called name mem).1⟩
  have removedEnd : removed =
      (removals (methodBody "destroy" (generate component analysis options).code)).map
        (·.listener values₃) := by
    refine destroyed.log_eq fun before s after call split called name mem => ?_
    have listed : call ∈ removals (methodBody "destroy"
        (generate component analysis options).code) :=
      List.mem_filterMap.2 ⟨s, split ▸ List.mem_append_right _ List.mem_cons_self, called⟩
    rw [removals_destroy, List.mem_reverse] at listed
    obtain ⟨kept, other⟩ := given call listed name mem
    refine ⟨kept, fun written => unassigned other ?_⟩
    rw [split, List.flatMap_append]
    exact List.mem_append_right _ written
  rw [removedEnd, addedEnd, removals_destroy, List.map_reverse]
  refine congrArg List.reverse (List.map_congr_left fun call listed => ?_)
  simp [ListenerCall.listener, same listed]

omit handlers in
/-- If the functions that were added are removed in every run, no handler that is a plain name
changes. -/
theorem unchanging_of_removesAdded (removes : RemovesAdded component analysis options) :
    ∀ name ∈ Fragment.allPlainHandlers options.eventMarker component.html,
      name ∉ analysis.willChange := by
  intro name plain changes
  have added : name ∈ addedHandlers (documentDraft options analysis component.html).create :=
    (sublist_addedHandlers_fragmentsDraft options analysis component.html _ 0).subset plain
  obtain ⟨call, listed, rfl⟩ := List.mem_map.1 added
  have listed : call ∈ additions (methodBody "create"
      (generate component analysis options).code) := by
    rw [methodBody_create, additions, List.filterMap_append]
    exact List.mem_append_left _ listed
  -- nothing happens but that the handler changes between the two methods
  let later : String → Bool := fun name => decide (name ≠ call.handler)
  have changed : later call.handler = false := by simp [later]
  have between : ∀ name, later name ≠ true → name ∈ analysis.willChange ∨
      name ∈ (meanwhile (generate component analysis options).code).flatMap Statement.writes := by
    intro name ne
    obtain rfl : name = call.handler := by simpa [later] using ne
    exact .inl changes
  have same := removes Bool (fun _ => true) (fun _ => true) later later _ _ (.unchanged _ _) between
    (.unchanged _ _)
  have listed' : call ∈ removals (methodBody "destroy"
      (generate component analysis options).code) := by
    rw [removals_destroy]
    exact List.mem_reverse.2 listed
  have removed := List.mem_map_of_mem (f := (·.listener later)) listed'
  rw [removals, same, List.mem_reverse] at removed
  obtain ⟨call', -, eq⟩ := List.mem_map.1 removed
  have function := congrArg Listener.function eq
  simp [ListenerCall.listener, changed] at function

/-- **Listener removal receives the function that was added**, unless a handler that is a plain
name changes. Listeners are added by `create` only as `Builds` says, with a handler that is bound
and assigned once, before the listener is added, or that is a plain name; `destroy` removes the same
listeners in reverse order. In all runs the functions that are removed are those that were added if
and only if no handler that is a plain name is among the names that change. -/
theorem removesAdded_iff (changes : ∀ name ∈ analysis.willChange, ¬IsGenerated name) :
    (∀ s ∈ methodBody "create" (generate component analysis options).code,
      Builds options (· ∈ (documentDraft options analysis component.html).bindings)
        (· ∈ Fragment.allPlainHandlers options.eventMarker component.html) s) ∧
    (∀ before s after call,
      methodBody "create" (generate component analysis options).code = before ++ s :: after →
      listenerCall? "addEventListener" s = some call →
        AssignedOnce component analysis options before call.handler ∨
          call.handler ∈ Fragment.allPlainHandlers options.eventMarker component.html) ∧
    removals (methodBody "destroy" (generate component analysis options).code) =
      (additions (methodBody "create" (generate component analysis options).code)).reverse ∧
    (RemovesAdded component analysis options ↔
      ∀ name ∈ Fragment.allPlainHandlers options.eventMarker component.html,
        name ∉ analysis.willChange) :=
  ⟨builds_create component analysis options,
    fun _ _ _ _ split called => (assignedOnce_of_listenerCall? handlers split called).2,
    removals_destroy component analysis options,
    unchanging_of_removesAdded, removesAdded_of_unchanging handlers changes⟩

end

/-- A button that counts: one of its handlers is a function, the other one is stored. -/
def counting : Component where
  html :=
    [.element "button"
      [⟨"on:click", .identifier "f"⟩, ⟨"on:keyup", .verbatim "() => g(n)" ["g", "n"]⟩]
      [.expression (.identifier "n")] 0]
  script :=
    [.declaration .lexical [⟨.identifier "n", some (.verbatim "0" [])⟩],
      .function ⟨0, ⟨some "f", false, false, false, [], []⟩,
        .block [.expression (.assignment "=" (.identifier "n") (.verbatim "1" []))]⟩]

theorem removesAdded_counting :
    additions (methodBody "create"
        (generate (counting.analyze "on:").component (counting.analyze "on:").analysis {}).code) =
      [⟨"$$button_1", "click", "f"⟩, ⟨"$$button_1", "keyup", "$$button_keyup_2"⟩] ∧
    (counting.analyze "on:").analysis.willChange.toList = ["n"] ∧
    RemovesAdded (counting.analyze "on:").component (counting.analyze "on:").analysis {} := by
  have changing : (counting.analyze "on:").analysis.willChange.toList = ["n"] := by decide +kernel
  have changes : ∀ name ∈ (counting.analyze "on:").analysis.willChange, ¬IsGenerated name := by
    intro name mem
    rw [NameSet.mem_def, changing, List.mem_singleton] at mem
    rw [mem]
    decide
  have iff : RemovesAdded (counting.analyze "on:").component (counting.analyze "on:").analysis {} ↔
      _ := (removesAdded_iff (by decide +kernel) changes).2.2.2
  exact ⟨by decide +kernel, changing, iff.2 (by decide +kernel)⟩

/-- A button whose handler is a plain name that the handler itself assigns. -/
def swapping : Component where
  html := [.element "button" [⟨"on:click", .identifier "h"⟩] [.text "x"] 0]
  script :=
    [.declaration .lexical [⟨.identifier "h",
      some (.function ⟨0, ⟨none, true, false, false, [], []⟩,
        .block [.expression (.assignment "=" (.identifier "h")
          (.function ⟨1, ⟨none, true, false, false, [], []⟩, .expression (.verbatim "1" [])⟩))]⟩)⟩]]

/-- The handler is read again when the listener is removed. If it has been assigned meanwhile,
another function than the added one is removed. -/
theorem swapped_handler_not_removed :
    "h" ∈ (swapping.analyze "on:").analysis.willChange ∧
    ∃ code, code =
        (generate (swapping.analyze "on:").component (swapping.analyze "on:").analysis {}).code ∧
      additions (methodBody "create" code) = [⟨"$$button_1", "click", "h"⟩] ∧
      ∃ values values' : String → Bool,
        Run (· ∈ (swapping.analyze "on:").analysis.willChange) "addEventListener"
          (methodBody "create" code) values [⟨true, "click", true⟩] values ∧
        (∀ name, values' name ≠ values name →
          name ∈ (swapping.analyze "on:").analysis.willChange) ∧
        Run (· ∈ (swapping.analyze "on:").analysis.willChange) "removeEventListener"
          (methodBody "destroy" code) values' [⟨true, "click", false⟩] values' := by
  have changes : "h" ∈ (swapping.analyze "on:").analysis.willChange := by decide +kernel
  have added : additions (methodBody "create" (generate (swapping.analyze "on:").component
      (swapping.analyze "on:").analysis {}).code) = [⟨"$$button_1", "click", "h"⟩] := by
    decide +kernel
  have removed : removals (methodBody "destroy" (generate (swapping.analyze "on:").component
      (swapping.analyze "on:").analysis {}).code) = [⟨"$$button_1", "click", "h"⟩] := by
    decide +kernel
  refine ⟨changes, _, rfl, added, fun _ => true, fun name => name ≠ "h", ?_, fun name ne => ?_, ?_⟩
  · have run : Run (· ∈ (swapping.analyze "on:").analysis.willChange) "addEventListener"
        (methodBody "create" (generate (swapping.analyze "on:").component
          (swapping.analyze "on:").analysis {}).code) (fun _ => true) _ (fun _ => true) :=
      .unchanged _ _
    rwa [← additions, added] at run
  · obtain rfl : name = "h" := by simpa using ne
    exact changes
  · have run : Run (· ∈ (swapping.analyze "on:").analysis.willChange) "removeEventListener"
        (methodBody "destroy" (generate (swapping.analyze "on:").component
          (swapping.analyze "on:").analysis {}).code) (fun name => decide (name ≠ "h")) _
        (fun name => decide (name ≠ "h")) := .unchanged _ _
    rwa [← removals, removed] at run

end ReactiveMarkup.Client
