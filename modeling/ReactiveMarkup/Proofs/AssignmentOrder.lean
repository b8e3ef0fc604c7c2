import ReactiveMarkup.Proofs.DocumentModel
import ReactiveMarkup.Proofs.DraftPiece
import ReactiveMarkup.Proofs.IdentifierUse
import ReactiveMarkup.Proofs.Lifecycle

/-!
# The order of assignments in `create`

The statements of `create` assign the bindings of a document one after the other, and read none
before it is assigned. Bindings are numbered, so this is said by numbers: behind the assignments of
the first `n` bindings, whatever is read is `Older n`. Statements of this kind can be put one behind
the other (`AssignsInOrder.append`), as the pieces of a draft are.
-/

namespace ReactiveMarkup.Client

open Emission (Statement Expression Use)
open Document (Older)

/-! ## What the statements of a draft use -/

/-- The text as which a script expression enters a module. -/
def scriptText (e : Script.Expression) : String :=
  match embed e with
  | .verbatim code => code
  | _ => ""

theorem embed_eq (e : Script.Expression) : embed e = .verbatim (scriptText e) := by
  cases e <;> rfl

@[simp] theorem uses_embed (scope : List String) (e : Script.Expression) :
    (embed e).uses scope = [.script (scriptText e)] := by
  rw [embed_eq]
  rfl

@[simp] theorem uses_assignTo (scope : List String) (name : String) (value : Expression) :
    (assignTo name value).uses scope = .write name scope :: value.uses scope := rfl

@[simp] theorem uses_invoke (scope : List String) (object method : String)
    (arguments : List Expression) :
    (invoke object method arguments).uses scope =
      .read object scope :: Expression.allUses scope arguments := rfl

@[simp] theorem uses_documentCall (scope : List String) (method : String) (argument : Expression) :
    (documentCall method argument).uses scope = .read "document" scope :: argument.uses scope := by
  simp [documentCall, Expression.callMethod, Expression.uses, Expression.allUses]

variable (options : Options) (analysis : Analysis) (scope : List String)

theorem uses_adoptOrCreate (place : Place) (fresh : Expression) :
    (adoptOrCreate options place fresh).uses scope =
      (if options.hydratable then [.read Vocabulary.hydrate scope, .read place.parent scope]
        else []) ++ fresh.uses scope := by
  unfold adoptOrCreate
  split <;> simp [Expression.uses]

theorem uses_mount (place : Place) (node : String) :
    (mount options place node).uses scope =
      (if options.hydratable then [.read Vocabulary.hydrate scope] else []) ++
        [.read place.parent scope, .read node scope] := by
  unfold mount
  split <;> simp [Statement.uses, Statement.allUses, Expression.uses, Expression.allUses]

theorem isGenerated_bindingName (stem : String) (number : Nat) :
    IsGenerated (bindingName stem number) := by
  rw [IsGenerated, toList_bindingName]
  exact List.prefix_append ['$', '$'] _

/-! ## Statements that assign bindings in order -/

/-- Statements behind the assignments of the first bindings that assign the next ones in order and
read only what is there by then. -/
inductive AssignsInOrder (names : String → List String) :
    Nat → Nat → List String → List Statement → Prop
  | nil {n : Nat} : AssignsInOrder names n n [] []
  | assign {n last : Nat} {bindings : List String} {s : Statement} {rest : List Statement}
      (stem : String) (writes : s.writes = [bindingName stem (n + 1)])
      (reads : ∀ name ∈ s.reads names, Older n name)
      (behind : AssignsInOrder names (n + 1) last bindings rest) :
      AssignsInOrder names n last (bindingName stem (n + 1) :: bindings) (s :: rest)
  | other {n last : Nat} {bindings : List String} {s : Statement} {rest : List Statement}
      (writes : s.writes = []) (reads : ∀ name ∈ s.reads names, Older n name)
      (behind : AssignsInOrder names n last bindings rest) :
      AssignsInOrder names n last bindings (s :: rest)

namespace AssignsInOrder

variable {names : String → List String} {n middle last : Nat} {bindings bindings' : List String}
  {ss ss' : List Statement}

theorem append (h : AssignsInOrder names n middle bindings ss)
    (h' : AssignsInOrder names middle last bindings' ss') :
    AssignsInOrder names n last (bindings ++ bindings') (ss ++ ss') := by
  induction h with
  | nil => exact h'
  | assign stem writes reads _ ih => exact .assign stem writes reads (ih h')
  | other writes reads _ ih => exact .other writes reads (ih h')

theorem numbered (h : AssignsInOrder names n last bindings ss) : Numbered n last bindings := by
  induction h with
  | nil => exact .nil
  | assign stem _ _ _ ih => exact .cons stem ih
  | other _ _ _ ih => exact ih

theorem flatMap_writes (h : AssignsInOrder names n last bindings ss) :
    ss.flatMap Statement.writes = bindings := by
  induction h with
  | nil => rfl
  | assign stem writes _ _ ih => rw [List.flatMap_cons, writes, ih, List.singleton_append]
  | other writes _ _ ih => rw [List.flatMap_cons, writes, ih, List.nil_append]

theorem not_mem_of_older (h : AssignsInOrder names n last bindings ss) {name : String}
    (older : Older n name) : name ∉ bindings := by
  intro mem
  obtain ⟨stem, number, eq, lt⟩ := h.numbered.exists_number mem
  exact older stem number lt eq

/-- A binding that a statement reads is assigned before it. -/
theorem mem_writes_of_reads (h : AssignsInOrder names n last bindings ss)
    {before after : List Statement} {s : Statement} (split : ss = before ++ s :: after)
    {name : String} (read : name ∈ s.reads names) (binding : name ∈ bindings) :
    name ∈ before.flatMap Statement.writes := by
  -- where the statement comes first, what it reads is older than every binding of the list
  induction h generalizing before with
  | nil => simp at split
  | assign stem writes reads behind ih =>
    cases before with
    | nil =>
      obtain ⟨rfl, rfl⟩ := List.cons.inj split
      exact absurd binding ((AssignsInOrder.assign stem writes reads behind).not_mem_of_older
        (reads name read))
    | cons first before =>
      obtain ⟨rfl, split'⟩ := List.cons.inj split
      rw [List.flatMap_cons, writes, List.singleton_append, List.mem_cons]
      exact (List.mem_cons.1 binding).imp_right (ih split')
  | other writes reads behind ih =>
    cases before with
    | nil =>
      obtain ⟨rfl, rfl⟩ := List.cons.inj split
      exact absurd binding (behind.not_mem_of_older (reads name read))
    | cons first before =>
      obtain ⟨rfl, split'⟩ := List.cons.inj split
      rw [List.flatMap_cons, List.mem_append]
      exact .inr (ih split' binding)

end AssignsInOrder

/-! ## Drafts -/

theorem older_of_not_isGenerated {name : String} (plain : ¬IsGenerated name) (count : Nat) :
    Older count name := by
  rintro stem number - rfl
  exact plain (isGenerated_bindingName stem number)

theorem older_of_not_mem {name : String} (plain : '_' ∉ name.toList) (count : Nat) :
    Older count name := fun stem number _ eq => bindingName_ne plain stem number eq.symm

section

variable (names : String → List String)

/-- Whether no script text of an expression in a template reads a binding. -/
def ReadsNoBinding (e : Script.Expression) : Prop :=
  ∀ name ∈ names (scriptText (notifyTemplate analysis e)), Older 0 name

variable {names} {count : Nat}

attribute [local simp] Statement.reads Statement.writes Use.reads Use.writes

theorem assignsInOrder_nodeDraft (place : Place) (stem : String) (fresh : Expression)
    (writes : (fresh.uses []).flatMap Use.writes = [])
    (reads : ∀ name ∈ (fresh.uses []).flatMap (Use.reads names), Older count name)
    (older : Older count place.parent) :
    AssignsInOrder names count (count + 1)
      (nodeDraft options place (bindingName stem (count + 1)) fresh).bindings
      (nodeDraft options place (bindingName stem (count + 1)) fresh).create := by
  have hydrate (n : Nat) : Older n Vocabulary.hydrate := older_of_not_mem (by decide) n
  refine .assign stem ?_ ?_ (.other ?_ ?_ .nil)
  · cases h : options.hydratable <;> simp [uses_adoptOrCreate, h, writes]
  · cases h : options.hydratable
    · simpa [uses_adoptOrCreate, h] using reads
    · simpa [uses_adoptOrCreate, h, hydrate, older] using reads
  · cases h : options.hydratable <;> simp [uses_mount, h]
  · have parent := older.mono (Nat.le_succ count)
    have self : Older (count + 1) (bindingName stem (count + 1)) := .bindingName _ _
    cases h : options.hydratable <;> simp [uses_mount, h, hydrate, parent, self]

theorem assignsInOrder_valueDraft {node : String} (a : Attribute) (older : Older count node)
    (plain : ReadsNoBinding analysis names a.value) :
    AssignsInOrder names count count (valueDraft analysis node a).bindings
      (valueDraft analysis node a).create := by
  refine .other ?_ ?_ .nil
  · simp [Expression.allUses, Expression.uses]
  · simpa [Expression.allUses, Expression.uses, older] using
      fun name mem => (plain name mem).mono (Nat.zero_le count)

theorem assignsInOrder_listenerDraft {node handler : String} (event : String)
    (older : Older count node) (older' : Older count handler) :
    AssignsInOrder names count count (listenerDraft node event handler).bindings
      (listenerDraft node event handler).create := by
  refine .other ?_ ?_ .nil
  · simp [Expression.allUses, Expression.uses]
  · simp [Expression.allUses, Expression.uses, older, older']

theorem assignsInOrder_eventDraft (element : String) {node : String} (event : String)
    (a : Attribute) (older : Older count node) (plain : ReadsNoBinding analysis names a.value)
    (handler : ∀ name, a.value = .identifier name → Older 0 name) :
    AssignsInOrder names count (eventDraft analysis element node event a count).2
      (eventDraft analysis element node event a count).1.bindings
      (eventDraft analysis element node event a count).1.create := by
  unfold eventDraft
  split
  · rename_i name same
    have given := handler name (value_eq_of_notifyTemplate analysis same)
    exact assignsInOrder_listenerDraft event older (given.mono (Nat.zero_le count))
  · refine .append (.assign (element ++ "_" ++ event) ?_ ?_ .nil)
      (assignsInOrder_listenerDraft event (older.mono (Nat.le_succ count)) (.bindingName _ _))
    · simp
    · simpa using fun name mem => (plain name mem).mono (Nat.zero_le count)

theorem assignsInOrder_attributesDraft (element : String) {node : String}
    (attributes : List Attribute) (older : Older count node)
    (plain : ∀ a ∈ attributes, ReadsNoBinding analysis names a.value)
    (handlers : ∀ name ∈ attributes.filterMap (Attribute.plainHandler? options.eventMarker),
      Older 0 name) :
    AssignsInOrder names count (attributesDraft options analysis element node attributes count).2
      (attributesDraft options analysis element node attributes count).1.bindings
      (attributesDraft options analysis element node attributes count).1.create := by
  induction attributes generalizing count with
  | nil => exact .nil
  | cons a rest ih =>
    rw [attributesDraft]
    obtain ⟨first, behind⟩ := List.forall_mem_cons.1 plain
    obtain ⟨handler, handlersBehind⟩ := Attribute.forall_plainHandlers_cons handlers
    have others : ∀ count', Older count' node → _ := fun _ older' =>
      ih older' behind handlersBehind
    cases listens : a.event? options.eventMarker with
    | none => exact (assignsInOrder_valueDraft analysis a older first).append (others _ older)
    | some event =>
      have own := assignsInOrder_eventDraft analysis element event a older first
        (handler event listens)
      exact own.append (others _ (older.mono own.numbered.le))

/-- The statements for neighbouring fragments assign their bindings in order. -/
theorem assignsInOrder_fragmentsDraft (fs : List Fragment) (place : Place)
    (older : Older count place.parent)
    (plain : ∀ e ∈ Fragment.allExpressions fs, ReadsNoBinding analysis names e)
    (handlers : ∀ name ∈ Fragment.allPlainHandlers options.eventMarker fs, Older 0 name) :
    AssignsInOrder names count (fragmentsDraft options analysis place count fs).2
      (fragmentsDraft options analysis place count fs).1.bindings
      (fragmentsDraft options analysis place count fs).1.create := by
  induction fs using Fragment.induction generalizing place count with
  | nil => exact .nil
  | cons f rest inner behind =>
    rw [fragmentsDraft]
    rw [Fragment.allExpressions, List.forall_mem_append] at plain
    rw [Fragment.allPlainHandlers, List.forall_mem_append] at handlers
    -- numbers only go up, so what was older before the first fragment is older behind it
    suffices first : AssignsInOrder names count (fragmentDraft options analysis place count f).2
        (fragmentDraft options analysis place count f).1.bindings
        (fragmentDraft options analysis place count f).1.create from
      first.append (behind { place with index := place.index + f.width }
        (older.mono first.numbered.le) plain.2 handlers.2)
    cases f with
    | element name attributes children offset =>
      have self : Older (count + 1) (bindingName name (count + 1)) := .bindingName _ _
      obtain ⟨plainOwn, plainInner⟩ := List.forall_mem_append.1 plain.1
      obtain ⟨handlersOwn, handlersInner⟩ := List.forall_mem_append.1 handlers.1
      have node : AssignsInOrder names count (count + 1) _ _ :=
        assignsInOrder_nodeDraft options place name (documentCall "createElement" (.text name))
          (by simp [Expression.uses]) (by simp [Expression.uses, older_of_not_mem]) older
      have own := assignsInOrder_attributesDraft options analysis name attributes self
        (fun a mem => plainOwn a.value (List.mem_map_of_mem mem)) handlersOwn
      have children := inner ⟨bindingName name (count + 1), 0, place.depth + 1⟩
        (self.mono own.numbered.le) plainInner handlersInner
      exact (node.append own).append children
    | text value =>
      exact assignsInOrder_nodeDraft options place "t" _ (by simp [Expression.uses])
        (by simp [Expression.uses, older_of_not_mem]) older
    | expression e =>
      refine .append (assignsInOrder_nodeDraft options place "t" _ (by simp) ?_ older) .nil
      have text := plain.1 e (List.mem_singleton.2 rfl)
      simpa [older_of_not_mem] using fun name mem => (text name mem).mono (Nat.zero_le count)

end

/-! ## The method `create` -/

section

variable {component : Component} {analysis : Analysis} {options : Options}
  {names : String → List String}

/-- The statements for a document assign its bindings in order. -/
theorem assignsInOrder_documentDraft
    (plain : ∀ e ∈ Fragment.allExpressions component.html, ReadsNoBinding analysis names e)
    (handlers : ∀ name ∈ Fragment.allPlainHandlers options.eventMarker component.html,
      ¬IsGenerated name) :
    ∃ last, AssignsInOrder names 0 last (documentDraft options analysis component.html).bindings
      (documentDraft options analysis component.html).create :=
  ⟨_, assignsInOrder_fragmentsDraft options analysis component.html _ (.target 0) plain
    fun name mem => older_of_not_isGenerated (handlers name mem) 0⟩

variable {last : Nat}
  (order : AssignsInOrder names 0 last (documentDraft options analysis component.html).bindings
    (documentDraft options analysis component.html).create)

include order

/-- Besides the bindings, `create` assigns one flag. -/
theorem flatMap_writes_create :
    (methodBody "create" (generate component analysis options).code).flatMap Statement.writes =
      (documentDraft options analysis component.html).bindings ++ [Vocabulary.mounted] := by
  rw [methodBody_create, List.flatMap_append, order.flatMap_writes]
  rfl

/-- A binding that a statement of `create` reads is assigned before it. -/
theorem mem_writes_of_reads_create {before after : List Statement} {s : Statement}
    (split : methodBody "create" (generate component analysis options).code =
      before ++ s :: after)
    {name : String} (read : name ∈ s.reads names)
    (binding : name ∈ (documentDraft options analysis component.html).bindings) :
    name ∈ before.flatMap Statement.writes := by
  rw [methodBody_create] at split
  -- the last statement sets a flag and reads nothing
  rcases List.eq_nil_or_concat after with rfl | ⟨after, last, rfl⟩
  · obtain ⟨-, same⟩ := List.append_inj' split rfl
    obtain rfl := List.singleton_inj.1 same
    cases read
  · rw [List.concat_eq_append, ← List.cons_append, ← List.append_assoc] at split
    exact order.mem_writes_of_reads (List.append_inj' split rfl).1 read binding

end

end ReactiveMarkup.Client
