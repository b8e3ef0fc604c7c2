import ReactiveMarkup.Client.Module
import ReactiveMarkup.Proofs.FragmentPosition

/-!
# Modules that adopt nothing

A hydratable module decides at run time whether it adopts rendered nodes. When that is known not to
happen, every choice in its method `create` can be made in advance: `unhydrated` takes the other
branch of each condition and runs what is guarded by it. What is left of a hydratable module is the
module that is generated without hydration, name by name and statement by statement
(`withoutHydration_generate`).

The two drafts of some fragments are compared piece by piece (`Specializes`); since the option
changes neither the bindings of a piece nor their number, the pieces behind it stay comparable.
-/

namespace ReactiveMarkup.Emission

/-- Whether an expression asks whether rendered nodes are adopted. -/
def Expression.asksHydration : Expression → Bool
  | .identifier name => name == Vocabulary.hydrate
  | _ => false

/-- Whether an expression asks whether no rendered nodes are adopted. -/
def Expression.deniesHydration : Expression → Bool
  | .unary operator operand => operator == "!" && operand.asksHydration
  | _ => false

mutual

/-- What is left of a statement when no rendered nodes are adopted: nothing but the body of one that
is guarded by this. -/
def Statement.unhydrated : Statement → List Statement
  | .declare name none => [.declare name none]
  | .declare name (some init) => [.declare name (some init.unhydrated)]
  | .constant name init => [.constant name init.unhydrated]
  | .expression e => [.expression e.unhydrated]
  | .guarded test body =>
    if test.deniesHydration then Statement.allUnhydrated body
    else [.guarded test.unhydrated (Statement.allUnhydrated body)]
  | .result value => [.result value.unhydrated]
  | .function name params body => [.function name params (Statement.allUnhydrated body)]
  | .loop test body => [.loop test.unhydrated (Statement.allUnhydrated body)]
  | .each binding iterable body =>
    [.each binding iterable.unhydrated (Statement.allUnhydrated body)]
  | .ensured body finalizer =>
    [.ensured (Statement.allUnhydrated body) (Statement.allUnhydrated finalizer)]
  | .verbatim code => [.verbatim code]
termination_by structural s => s

/-- What is left of some statements when no rendered nodes are adopted. -/
def Statement.allUnhydrated : List Statement → List Statement
  | [] => []
  | s :: rest => s.unhydrated ++ Statement.allUnhydrated rest
termination_by structural ss => ss

/-- What is left of an expression when no rendered nodes are adopted: the last branch of a condition
that asks for this. -/
def Expression.unhydrated : Expression → Expression
  | .identifier name => .identifier name
  | .text value => .text value
  | .number value => .number value
  | .boolean value => .boolean value
  | .array items => .array (Expression.allUnhydrated items)
  | .member object property => .member object.unhydrated property
  | .index object key => .index object.unhydrated key.unhydrated
  | .call callee arguments => .call callee.unhydrated (Expression.allUnhydrated arguments)
  | .assign target value => .assign target.unhydrated value.unhydrated
  | .unary operator operand => .unary operator operand.unhydrated
  | .binary left operator right => .binary left.unhydrated operator right.unhydrated
  | .conditional test consequent alternate =>
    if test.asksHydration then alternate.unhydrated
    else .conditional test.unhydrated consequent.unhydrated alternate.unhydrated
  | .arrow params body => .arrow params body.unhydrated
  | .object methods => .object (Method.allUnhydrated methods)
  | .template parts => .template (TemplatePart.allUnhydrated parts)
  | .verbatim code => .verbatim code
termination_by structural e => e

/-- What is left of some expressions when no rendered nodes are adopted. -/
def Expression.allUnhydrated : List Expression → List Expression
  | [] => []
  | e :: rest => e.unhydrated :: Expression.allUnhydrated rest
termination_by structural es => es

/-- What is left of a method when no rendered nodes are adopted. -/
def Method.unhydrated : Method → Method
  | ⟨name, params, body⟩ =>
    ⟨name, Parameter.allUnhydrated params, Statement.allUnhydrated body⟩
termination_by structural m => m

/-- What is left of some methods when no rendered nodes are adopted. -/
def Method.allUnhydrated : List Method → List Method
  | [] => []
  | m :: rest => m.unhydrated :: Method.allUnhydrated rest
termination_by structural ms => ms

/-- What is left of some parameters when no rendered nodes are adopted: all but the one that asks
for this. -/
def Parameter.allUnhydrated : List Parameter → List Parameter
  | [] => []
  | ⟨name, none⟩ :: rest =>
    if name = Vocabulary.hydrate then Parameter.allUnhydrated rest
    else ⟨name, none⟩ :: Parameter.allUnhydrated rest
  | ⟨name, some fallback⟩ :: rest =>
    if name = Vocabulary.hydrate then Parameter.allUnhydrated rest
    else ⟨name, some fallback.unhydrated⟩ :: Parameter.allUnhydrated rest
termination_by structural ps => ps

/-- What is left of the pieces of a template literal when no rendered nodes are adopted. -/
def TemplatePart.allUnhydrated : List TemplatePart → List TemplatePart
  | [] => []
  | .literal text :: rest => .literal text :: TemplatePart.allUnhydrated rest
  | .slot e :: rest => .slot e.unhydrated :: TemplatePart.allUnhydrated rest
termination_by structural ps => ps

end

/-- A method of a client module when no rendered nodes are adopted: only `create` can tell. -/
def Method.withoutHydration (m : Method) : Method := if m.name = "create" then m.unhydrated else m

/-- A statement of a client module, with the methods that it declares, when no rendered nodes are
adopted. -/
def Statement.withoutHydration : Statement → Statement
  | .constant name (.object methods) =>
    .constant name (.object (methods.map Method.withoutHydration))
  | s => s

/-- A client module when no rendered nodes are adopted. -/
def Module.withoutHydration (m : Module) : Module := ⟨m.body.map Statement.withoutHydration⟩

theorem Statement.allUnhydrated_append (ss ss' : List Statement) :
    allUnhydrated (ss ++ ss') = allUnhydrated ss ++ allUnhydrated ss' := by
  induction ss with
  | nil => rfl
  | cons s rest ih => simp only [List.cons_append, allUnhydrated, ih, List.append_assoc]

end ReactiveMarkup.Emission

namespace ReactiveMarkup.Client

open Emission (Statement Expression Module)

/-! ## Statements that ask for nothing -/

theorem unhydrated_embed (e : Script.Expression) : (embed e).unhydrated = embed e := by
  cases e <;> rfl

theorem unhydrated_assign_embed (name : String) (e : Script.Expression) :
    (assignTo name (embed e)).unhydrated = [assignTo name (embed e)] := by
  simp only [assignTo, Statement.unhydrated, Expression.unhydrated, unhydrated_embed]

theorem unhydrated_setAttribute (node name : String) (e : Script.Expression) :
    (invoke node "setAttribute" [.text name, embed e]).unhydrated =
      [invoke node "setAttribute" [.text name, embed e]] := by
  simp only [invoke, Expression.callMethod, Statement.unhydrated, Expression.unhydrated,
    Expression.allUnhydrated, unhydrated_embed]

/-! ## Drafts -/

/-- Whether the second draft is what is left of the first one when no rendered nodes are adopted. -/
structure Specializes (x y : Draft) : Prop where
  bindings : x.bindings = y.bindings
  create : Statement.allUnhydrated x.create = y.create
  update : x.update = y.update
  destroy : x.destroy = y.destroy

namespace Specializes

/-- A draft that asks for nothing stays as it is. -/
theorem self {x : Draft} (create : Statement.allUnhydrated x.create = x.create) :
    Specializes x x :=
  ⟨rfl, create, rfl, rfl⟩

theorem empty : Specializes .empty .empty := self rfl

theorem append {x y x' y' : Draft} (h : Specializes x y) (h' : Specializes x' y') :
    Specializes (x ++ x') (y ++ y') where
  bindings := by
    show x.bindings ++ x'.bindings = y.bindings ++ y'.bindings
    rw [h.bindings, h'.bindings]
  create := by
    show Statement.allUnhydrated (x.create ++ x'.create) = y.create ++ y'.create
    rw [Statement.allUnhydrated_append, h.create, h'.create]
  update := by
    show x.update ++ x'.update = y.update ++ y'.update
    rw [h.update, h'.update]
  destroy := by
    show x.destroy ++ x'.destroy = y.destroy ++ y'.destroy
    rw [h.destroy, h'.destroy]

end Specializes

variable (options : Options) (analysis : Analysis)

/-- The given options, with rendered nodes adopted or not. -/
abbrev hydrating (hydratable : Bool) : Options := { options with hydratable }

/-- The code that creates a node, with a fresh node that is made without asking. -/
theorem specializes_nodeDraft (place : Place) (node : String) {fresh : Expression}
    (plain : fresh.unhydrated = fresh) :
    Specializes (nodeDraft (hydrating options true) place node fresh)
      (nodeDraft (hydrating options false) place node fresh) where
  bindings := rfl
  create := by
    show [Statement.expression (.assign (.identifier node) fresh.unhydrated),
      invoke place.parent "appendChild" [.identifier node]] = _
    rw [plain]
    rfl
  update := rfl
  destroy := rfl

theorem specializes_valueDraft (node : String) (a : Attribute) :
    Specializes (valueDraft analysis node a) (valueDraft analysis node a) := by
  refine .self ?_
  simp only [valueDraft, Statement.allUnhydrated, unhydrated_setAttribute, List.append_nil]

theorem specializes_listenerDraft (node event handler : String) :
    Specializes (listenerDraft node event handler) (listenerDraft node event handler) := .self rfl

theorem specializes_eventDraft (element node event : String) (a : Attribute) (count : Nat) :
    Specializes (eventDraft analysis element node event a count).1
      (eventDraft analysis element node event a count).1 := by
  unfold eventDraft
  split
  · exact specializes_listenerDraft node event _
  · refine Specializes.append (.self ?_) (specializes_listenerDraft node event _)
    simp only [Statement.allUnhydrated, unhydrated_assign_embed, List.append_nil]

theorem attributesDraft_hydrating (element node : String) (attributes : List Attribute)
    (hydratable : Bool) (count : Nat) :
    attributesDraft (hydrating options hydratable) analysis element node attributes count =
      attributesDraft options analysis element node attributes count := by
  induction attributes generalizing count with
  | nil => rfl
  | cons a rest ih => simp only [attributesDraft, ih]

theorem specializes_attributesDraft (element node : String) (attributes : List Attribute)
    (count : Nat) :
    Specializes (attributesDraft options analysis element node attributes count).1
      (attributesDraft options analysis element node attributes count).1 := by
  induction attributes generalizing count with
  | nil => exact .empty
  | cons a rest ih =>
    rw [attributesDraft]
    refine Specializes.append ?_ (ih _)
    cases a.event? options.eventMarker with
    | none => exact specializes_valueDraft analysis node a
    | some event => exact specializes_eventDraft analysis element node event a count

theorem unhydrated_documentCall_embed (method : String) (e : Script.Expression) :
    (documentCall method (embed e)).unhydrated = documentCall method (embed e) := by
  simp only [documentCall, Expression.callMethod, Expression.unhydrated, Expression.allUnhydrated,
    unhydrated_embed]

/-- The pieces of some fragments specialize one by one, and both drafts have used the same number of
bindings then. -/
theorem specializes_fragmentsDraft (fs : List Fragment) (place : Place) (count : Nat) :
    Specializes (fragmentsDraft (hydrating options true) analysis place count fs).1
        (fragmentsDraft (hydrating options false) analysis place count fs).1 ∧
      (fragmentsDraft (hydrating options true) analysis place count fs).2 =
        (fragmentsDraft (hydrating options false) analysis place count fs).2 := by
  induction fs using Fragment.induction generalizing place count with
  | nil => exact ⟨.empty, rfl⟩
  | cons f rest inner behind =>
    -- both drafts number their bindings alike, so that the rest starts with the same number
    suffices first : Specializes (fragmentDraft (hydrating options true) analysis place count f).1
          (fragmentDraft (hydrating options false) analysis place count f).1 ∧
        (fragmentDraft (hydrating options true) analysis place count f).2 =
          (fragmentDraft (hydrating options false) analysis place count f).2 by
      rw [fragmentsDraft, fragmentsDraft, first.2]
      exact ⟨first.1.append (behind _ _).1, (behind _ _).2⟩
    cases f with
    | element name attributes children offset =>
      simp only [fragmentDraft, attributesDraft_hydrating]
      refine ⟨.append (.append ?_ ?_) (inner _ _).1, (inner _ _).2⟩
      · exact specializes_nodeDraft options place _ rfl
      · exact specializes_attributesDraft options analysis name _ attributes _
    | text value => exact ⟨specializes_nodeDraft options place _ rfl, rfl⟩
    | expression e =>
      refine ⟨.append ?_ (.self rfl), rfl⟩
      exact specializes_nodeDraft options place _ (unhydrated_documentCall_embed _ _)

/-! ## Modules -/

theorem withoutHydration_lifecycle {x y : Draft} (h : Specializes x y) :
    (Statement.constant Vocabulary.lifecycle
        (lifecycle (hydrating options true) x)).withoutHydration =
      .constant Vocabulary.lifecycle (lifecycle (hydrating options false) y) := by
  obtain ⟨-, create, update, destroy⟩ := h
  have params : Emission.Parameter.allUnhydrated (createParams (hydrating options true)) =
      createParams (hydrating options false) := rfl
  have mounted : Statement.allUnhydrated [assignTo Vocabulary.mounted (.boolean true)] =
      [assignTo Vocabulary.mounted (.boolean true)] := rfl
  simp [lifecycle, Statement.withoutHydration, Emission.Method.withoutHydration,
    Emission.Method.unhydrated, Statement.allUnhydrated_append, params, mounted, create, update,
    destroy]

theorem withoutHydration_undeclaredBindings :
    (undeclaredBindings analysis).map Statement.withoutHydration = undeclaredBindings analysis := by
  simp [undeclaredBindings, Statement.withoutHydration]

theorem withoutHydration_stateBindings {x y : Draft} (h : Specializes x y) :
    (stateBindings x).map Statement.withoutHydration = stateBindings y := by
  simp [stateBindings, Statement.withoutHydration, h.bindings]

theorem withoutHydration_embedScript (script : List Script.Statement) :
    (embedScript script).map Statement.withoutHydration = embedScript script := by
  unfold embedScript
  dsimp only
  split <;> rfl

theorem withoutHydration_firstRecomputation :
    (firstRecomputation analysis).map Statement.withoutHydration =
      firstRecomputation analysis := by
  unfold firstRecomputation
  split <;> rfl

/-- Without adopting rendered nodes, the hydratable module of a component is the module that is
generated for it without hydration. -/
theorem withoutHydration_generate (component : Component) :
    (generate component analysis { options with hydratable := true }).code.withoutHydration =
      (generate component analysis { options with hydratable := false }).code := by
  have drafts := (specializes_fragmentsDraft options analysis component.html
    ⟨Vocabulary.target, 0, 0⟩ 0).1
  simp only [generate, Module.withoutHydration, List.map_append, List.map_cons, List.map_nil,
    withoutHydration_undeclaredBindings, withoutHydration_stateBindings drafts,
    withoutHydration_embedScript, withoutHydration_firstRecomputation,
    withoutHydration_lifecycle options drafts, documentDraft]
  rfl

end ReactiveMarkup.Client
