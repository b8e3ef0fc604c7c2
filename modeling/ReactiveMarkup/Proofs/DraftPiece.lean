import ReactiveMarkup.Proofs.BindingNumber
import ReactiveMarkup.Proofs.NotifiedTree

/-!
# The pieces of a draft

The draft of a document is appended from pieces: nodes, values of attributes, stored handlers,
listeners and rules for interpolations. `DraftPieces` says what it takes for a property to hold of
each piece and of what is appended from them; then it holds of the draft of any markup
(`DraftPieces.fragmentsDraft`). The names in a piece are bindings of the draft, or a handler that is
given by name.
-/

namespace ReactiveMarkup

/-! ## Handlers that are plain names -/

/-- The handler of an event listener attribute, if it is a plain name. -/
def Attribute.plainHandler? (marker : String) (a : Attribute) : Option String :=
  match a.event? marker, a.value with
  | some _, .identifier name => some name
  | _, _ => none

mutual

/-- The event handlers of a fragment that are plain names. -/
def Fragment.plainHandlers (marker : String) : Fragment → List String
  | .element _ attributes children _ =>
    attributes.filterMap (Attribute.plainHandler? marker) ++
      Fragment.allPlainHandlers marker children
  | .text _ => []
  | .expression _ => []
termination_by structural f => f

/-- The event handlers of some fragments that are plain names. -/
def Fragment.allPlainHandlers (marker : String) : List Fragment → List String
  | [] => []
  | f :: rest => f.plainHandlers marker ++ Fragment.allPlainHandlers marker rest
termination_by structural fs => fs

end

theorem Attribute.forall_plainHandlers_cons {marker : String} {a : Attribute}
    {rest : List Attribute} {P : String → Prop}
    (all : ∀ name ∈ (a :: rest).filterMap (plainHandler? marker), P name) :
    (∀ event, a.event? marker = some event → ∀ name, a.value = .identifier name → P name) ∧
      ∀ name ∈ rest.filterMap (plainHandler? marker), P name := by
  constructor
  · intro event listens name same
    refine all name (List.mem_filterMap.2 ⟨a, List.mem_cons_self, ?_⟩)
    simp [plainHandler?, listens, same]
  · intro name mem
    obtain ⟨b, listed, handler⟩ := List.mem_filterMap.1 mem
    exact all name (List.mem_filterMap.2 ⟨b, List.mem_cons_of_mem _ listed, handler⟩)

namespace Client

open Emission (Statement Expression)

theorem value_eq_of_notifyTemplate (analysis : Analysis) {e : Script.Expression} {name : String}
    (h : notifyTemplate analysis e = .identifier name) : e = .identifier name :=
  notifyExpression_eq_identifier _ _ _ h

/-- Whether an expression is a text or script code. -/
def IsContent (content : Expression) : Prop :=
  (∃ value, content = .text value) ∨ ∃ e, content = embed e

/-- The statement that sets the data of a text. -/
def setData (node : String) (value : Expression) : Statement :=
  .expression (.assign (.member (.identifier node) "data") value)

/-- Whether a property holds of each piece of a draft and of what is appended from such pieces,
given which names are bound and which name handlers. -/
structure DraftPieces (options : Options) (analysis : Analysis) (bound named : String → Prop)
    (P : Draft → Prop) : Prop where
  empty : P .empty
  append : ∀ {x y : Draft}, P x → P y → P (x ++ y)
  node : ∀ (place : Place) (node method : String) (content : Expression),
    bound place.parent ∨ place.parent = Vocabulary.target → bound node → IsContent content →
      P (nodeDraft options place node (documentCall method content))
  rule : ∀ (node : String) (e e' : Script.Expression), bound node →
    P { Draft.empty with update := updateRule analysis e (setData node (embed e')) }
  value : ∀ (node : String) (a : Attribute), bound node → P (valueDraft analysis node a)
  store : ∀ (binding : String) (e : Script.Expression), bound binding →
    P { Draft.empty with bindings := [binding], create := [assignTo binding (embed e)] }
  listener : ∀ (node event handler : String), bound node → bound handler ∨ named handler →
    P (listenerDraft node event handler)

namespace DraftPieces

variable {options : Options} {analysis : Analysis} {bound named : String → Prop}
  {P : Draft → Prop} (pieces : DraftPieces options analysis bound named P)

include pieces

theorem eventDraft {node : String} (isBound : bound node) (element event : String) (a : Attribute)
    (count : Nat)
    (bindings : ∀ name ∈ (eventDraft analysis element node event a count).1.bindings, bound name)
    (handler : ∀ name, a.value = .identifier name → named name) :
    P (Client.eventDraft analysis element node event a count).1 := by
  revert bindings
  unfold Client.eventDraft
  split
  · rename_i name same
    intro _
    exact pieces.listener node event name isBound
      (.inr (handler name (value_eq_of_notifyTemplate analysis same)))
  · intro bindings
    have binding := bindings (bindingName (element ++ "_" ++ event) (count + 1)) List.mem_cons_self
    exact pieces.append (pieces.store _ _ binding) (pieces.listener _ _ _ isBound (.inl binding))

theorem attributesDraft {node : String} (isBound : bound node) (element : String)
    (attributes : List Attribute) (count : Nat)
    (bindings : ∀ name ∈
      (attributesDraft options analysis element node attributes count).1.bindings, bound name)
    (handlers : ∀ name ∈ attributes.filterMap (Attribute.plainHandler? options.eventMarker),
      named name) :
    P (Client.attributesDraft options analysis element node attributes count).1 := by
  induction attributes generalizing count with
  | nil => exact pieces.empty
  | cons a rest ih =>
    obtain ⟨handler, others⟩ := Attribute.forall_plainHandlers_cons handlers
    rw [Client.attributesDraft] at bindings ⊢
    rw [bindings_append, List.forall_mem_append] at bindings
    refine pieces.append ?_ (ih _ bindings.2 others)
    cases listens : a.event? options.eventMarker with
    | none => exact pieces.value node a isBound
    | some event =>
      rw [listens] at bindings
      exact pieces.eventDraft isBound element event a count bindings.1 (handler event listens)

/-- What holds of the pieces holds of the draft of any markup. -/
theorem fragmentsDraft (fs : List Fragment) (place : Place) (count : Nat)
    (parent : bound place.parent ∨ place.parent = Vocabulary.target)
    (bindings : ∀ name ∈ (fragmentsDraft options analysis place count fs).1.bindings, bound name)
    (handlers : ∀ name ∈ Fragment.allPlainHandlers options.eventMarker fs, named name) :
    P (Client.fragmentsDraft options analysis place count fs).1 := by
  induction fs using Fragment.induction generalizing place count with
  | nil => exact pieces.empty
  | cons f rest inner behind =>
    rw [Client.fragmentsDraft] at bindings ⊢
    rw [bindings_append, List.forall_mem_append] at bindings
    rw [Fragment.allPlainHandlers, List.forall_mem_append] at handlers
    refine pieces.append ?_ (behind _ _ parent bindings.2 handlers.2)
    cases f with
    | element name attributes children offset =>
      rw [fragmentDraft, bindings_append, bindings_append, List.forall_mem_append,
        List.forall_mem_append] at bindings
      obtain ⟨⟨⟨node, own⟩, below⟩, -⟩ := bindings
      obtain ⟨handlersOwn, handlersInner⟩ := List.forall_mem_append.1 handlers.1
      have self := node _ List.mem_cons_self
      rw [fragmentDraft]
      refine pieces.append (pieces.append ?_ ?_) ?_
      · exact pieces.node place _ _ _ parent self (.inl ⟨name, rfl⟩)
      · exact pieces.attributesDraft self name attributes _ own handlersOwn
      · exact inner _ _ (.inl self) below handlersInner
    | text value =>
      exact pieces.node place _ _ _ parent (bindings.1 _ List.mem_cons_self) (.inl ⟨value, rfl⟩)
    | expression e =>
      have self := bindings.1 (bindingName "t" (count + 1)) List.mem_cons_self
      exact pieces.append (pieces.node place _ _ _ parent self (.inr ⟨_, rfl⟩))
        (pieces.rule _ e _ self)

/-- What holds of the pieces holds of the draft of a document. -/
theorem documentDraft (html : List Fragment)
    (bindings : ∀ name ∈ (documentDraft options analysis html).bindings, bound name)
    (handlers : ∀ name ∈ Fragment.allPlainHandlers options.eventMarker html, named name) :
    P (Client.documentDraft options analysis html) :=
  pieces.fragmentsDraft html _ 0 (.inr rfl) bindings handlers

end DraftPieces

end Client

end ReactiveMarkup
