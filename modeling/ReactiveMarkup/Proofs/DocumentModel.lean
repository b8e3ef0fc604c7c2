import Mathlib.Logic.Function.Basic
import ReactiveMarkup.Proofs.BindingNumber

/-!
# Running lifecycle code on a document

The statements of `create` and `destroy` are read as actions on a document and performed. A document
has numbered nodes with child lists and listener lists. A node is appended by taking it from where
it is and putting it last among the children of its parent; only a child can be removed; a listener
is added once. The statements are read for a client that adopts no rendered nodes.

What an expression of the script yields is left open, except that a handler yields the same value
each time.
-/

namespace ReactiveMarkup.Document

open Emission (Statement Expression)
open Client (Draft Place)

/-! ## Documents -/

/-- What a node is. -/
inductive Content
  | element (name : String)
  /-- A text, given by the expression of its data. -/
  | text (data : Expression)

/-- A node of a document. -/
structure Node (V : Type) where
  content : Content
  /-- Names with the expressions of their values, in the order in which they were set. -/
  attributes : List (String × Expression)
  /-- The numbers of its children, in order. -/
  children : List Nat
  /-- Events with handlers. -/
  listeners : List (String × V)

/-- A document, as a module sees it. -/
structure World (V : Type) where
  /-- How many nodes have been made. They have the numbers below. -/
  size : Nat
  node : Nat → Node V
  /-- The nodes that names hold. -/
  names : String → Option Nat
  mounted : Bool

variable {V : Type}

namespace Node

/-- A node that has just been made. -/
def made (content : Content) : Node V := ⟨content, [], [], []⟩

/-- Puts a child last. -/
def adopt (child : Nat) (node : Node V) : Node V :=
  { node with children := node.children ++ [child] }

/-- Takes a child away. -/
def release (child : Nat) (node : Node V) : Node V :=
  { node with children := node.children.erase child }

/-- Sets an attribute. -/
def set (name : String) (value : Expression) (node : Node V) : Node V :=
  { node with attributes := node.attributes ++ [(name, value)] }

/-- Adds a listener, unless it is there. -/
def listen [DecidableEq V] (listener : String × V) (node : Node V) : Node V :=
  { node with
    listeners :=
      if listener ∈ node.listeners then node.listeners else node.listeners ++ [listener] }

/-- Removes a listener, if it is there. -/
def unlisten [DecidableEq V] (listener : String × V) (node : Node V) : Node V :=
  { node with listeners := node.listeners.filter (· ≠ listener) }

end Node

namespace World

/-- Changes a node. -/
def modify (w : World V) (n : Nat) (change : Node V → Node V) : World V :=
  { w with node := Function.update w.node n (change (w.node n)) }

/-- Makes a name hold a node, or none. -/
def bind (w : World V) (name : String) (held : Option Nat) : World V :=
  { w with names := Function.update w.names name held }

/-- Makes a node and gives it a name. -/
def make (w : World V) (name : String) (content : Content) : World V :=
  { w with
    size := w.size + 1
    node := Function.update w.node w.size (.made content)
    names := Function.update w.names name (some w.size) }

/-- Takes a node away from where it is. -/
def detach (w : World V) (child : Nat) : World V :=
  { w with node := fun n => (w.node n).release child }

/-- Moves a node to the end of the children of another. -/
def append (w : World V) (parent child : Nat) : World V :=
  (w.detach child).modify parent (Node.adopt child)

/-- Removes a node from its parent. Fails if it is no child of it. -/
def remove? (w : World V) (parent child : Nat) : Option (World V) :=
  if child ∈ (w.node parent).children then some (w.modify parent (Node.release child)) else none

end World

/-! ## Statements as actions -/

/-- What a statement does to a document. -/
inductive Action
  /-- Makes a node for a binding. -/
  | make (binding : String) (content : Content)
  /-- Lets a binding hold something other than a node. -/
  | hold (binding : String)
  | append (parent node : String)
  | remove (parent node : String)
  | set (node name : String) (value : Expression)
  | listen (node event : String) (handler : Expression)
  | unlisten (node event : String) (handler : Expression)
  | mounted (value : Bool)

/-- The action of an assignment to a binding. -/
def assignment? (binding : String) : Expression → Option Action
  | .call (.member (.identifier "document") "createElement") [.text name] =>
    some (.make binding (.element name))
  | .call (.member (.identifier "document") "createTextNode") [data] =>
    some (.make binding (.text data))
  | .conditional (.identifier test) _ fresh =>
    if test = Vocabulary.hydrate then assignment? binding fresh else none
  | .verbatim _ => some (.hold binding)
  | .boolean value => if binding = Vocabulary.mounted then some (.mounted value) else none
  | _ => none
termination_by structural e => e

/-- The action of a method call. -/
def invocation? (object : String) : String → List Expression → Option Action
  | "appendChild", [.identifier node] => some (.append object node)
  | "removeChild", [.identifier node] => some (.remove object node)
  | "setAttribute", [.text name, value] => some (.set object name value)
  | "addEventListener", [.text event, handler] => some (.listen object event handler)
  | "removeEventListener", [.text event, handler] => some (.unlisten object event handler)
  | _, _ => none

/-- The action of a statement. -/
def action? : Statement → Option Action
  | .expression (.assign (.identifier binding) value) => assignment? binding value
  | .expression (.call (.member (.identifier object) method) arguments) =>
    invocation? object method arguments
  | .guarded (.unary "!" (.identifier test)) [s] =>
    if test = Vocabulary.hydrate then action? s else none
  | _ => none
termination_by structural s => s

section

variable [DecidableEq V] (value : Expression → V)

/-- Performs an action. It fails if a name in it holds no node, and if something is to be removed
that is no child. -/
def Action.perform : Action → World V → Option (World V)
  | .make binding content, w => some (w.make binding content)
  | .hold binding, w => some (w.bind binding none)
  | .append parent node, w => do some (w.append (← w.names parent) (← w.names node))
  | .remove parent node, w => do w.remove? (← w.names parent) (← w.names node)
  | .set node name e, w => do some (w.modify (← w.names node) (Node.set name e))
  | .listen node event handler, w => do
    some (w.modify (← w.names node) (Node.listen (event, value handler)))
  | .unlisten node event handler, w => do
    some (w.modify (← w.names node) (Node.unlisten (event, value handler)))
  | .mounted flag, w => some { w with mounted := flag }

/-- Runs statements, one after the other. -/
def replay : List Statement → World V → Option (World V)
  | [], w => some w
  | s :: rest, w => ((action? s).bind (·.perform value w)).bind (replay rest)

theorem replay_append (code code' : List Statement) (w : World V) :
    replay value (code ++ code') w = (replay value code w).bind (replay value code') := by
  induction code generalizing w with
  | nil => rfl
  | cons s rest ih =>
    rw [List.cons_append, replay, replay]
    cases (action? s).bind (·.perform value w) with
    | none => rfl
    | some w' => exact ih w'

theorem replay_of_append {code code' : List Statement} {w w' w'' : World V}
    (first : replay value code w = some w') (second : replay value code' w' = some w'') :
    replay value (code ++ code') w = some w'' := by
  rw [replay_append, first, Option.bind_some, second]

end

/-! ## Sound documents -/

namespace World

/-- What holds of every document that can come about. -/
structure Sound (w : World V) : Prop where
  /-- Children have been made. -/
  child_lt : ∀ n, ∀ c ∈ (w.node n).children, c < w.size
  /-- Names hold nodes that have been made. -/
  name_lt : ∀ name n, w.names name = some n → n < w.size
  /-- Nodes that have not been made have neither children nor listeners. -/
  unmade : ∀ n, w.size ≤ n → (w.node n).children = [] ∧ (w.node n).listeners = []

theorem node_modify (w : World V) (n : Nat) (change : Node V → Node V) :
    (w.modify n change).node n = change (w.node n) := by
  simp [modify]

theorem node_modify_of_ne (w : World V) {n m : Nat} (change : Node V → Node V) (ne : m ≠ n) :
    (w.modify n change).node m = w.node m := by
  simp [modify, ne]

theorem children_modify {w : World V} {n : Nat} {change : Node V → Node V}
    (same : (change (w.node n)).children = (w.node n).children) (m : Nat) :
    ((w.modify n change).node m).children = (w.node m).children := by
  by_cases this : m = n
  · rw [this, node_modify, same]
  · rw [node_modify_of_ne _ _ this]

theorem listeners_modify {w : World V} {n : Nat} {change : Node V → Node V}
    (same : (change (w.node n)).listeners = (w.node n).listeners) (m : Nat) :
    ((w.modify n change).node m).listeners = (w.node m).listeners := by
  by_cases this : m = n
  · rw [this, node_modify, same]
  · rw [node_modify_of_ne _ _ this]

theorem names_bind_of_ne (w : World V) {name other : String} (held : Option Nat)
    (ne : other ≠ name) : (w.bind name held).names other = w.names other := by
  simp [bind, ne]

/-- A node that has not been made is nowhere. -/
theorem Sound.not_mem_children {w : World V} (sound : w.Sound) (n : Nat) :
    w.size ∉ (w.node n).children := fun mem => Nat.lt_irrefl _ (sound.child_lt n _ mem)

/-- Makes a node and puts it last among the children of another. -/
def mount (w : World V) (parent : Nat) (name : String) (content : Content) : World V :=
  (w.make name content).modify parent (Node.adopt w.size)

section

variable {w : World V} {p : Nat} (name : String) (content : Content)

/-- A new node need not be taken away from anywhere. -/
theorem append_make (sound : w.Sound) : (w.make name content).append p w.size =
    w.mount p name content := by
  have free : ∀ n, ((w.make name content).node n).release w.size =
      (w.make name content).node n := by
    intro n
    have absent : w.size ∉ ((w.make name content).node n).children := by
      by_cases new : n = w.size
      · simp [make, new, Node.made]
      · simpa [make, new] using sound.not_mem_children n
    simp [Node.release, List.erase_of_not_mem absent]
  have same : (w.make name content).detach w.size = w.make name content := by
    simp [detach, free]
  rw [append, same, mount]

theorem node_mount_parent (made : p < w.size) :
    (w.mount p name content).node p = (w.node p).adopt w.size := by
  simp [mount, modify, make, Nat.ne_of_lt made]

theorem node_mount_self (made : p < w.size) :
    (w.mount p name content).node w.size = .made content := by
  simp [mount, modify, make, (Nat.ne_of_lt made).symm]

theorem node_mount_of_ne {n : Nat} (ne_parent : n ≠ p) (ne_self : n ≠ w.size) :
    (w.mount p name content).node n = w.node n := by
  simp [mount, modify, make, ne_parent, ne_self]

theorem listeners_mount (sound : w.Sound) (made : p < w.size) (n : Nat) :
    ((w.mount p name content).node n).listeners = (w.node n).listeners := by
  by_cases parent : n = p
  · rw [parent, node_mount_parent _ _ made]
    rfl
  by_cases self : n = w.size
  · rw [self, node_mount_self _ _ made, (sound.unmade _ (Nat.le_refl _)).2]
    rfl
  · rw [node_mount_of_ne _ _ parent self]

theorem names_mount_self : (w.mount p name content).names name = some w.size := by
  simp [mount, modify, make]

theorem names_mount_of_ne {other : String} (ne : other ≠ name) :
    (w.mount p name content).names other = w.names other := by
  simp [mount, modify, make, ne]

theorem size_mount : (w.mount p name content).size = w.size + 1 := rfl

end

theorem Sound.mount {w : World V} (sound : w.Sound) {p : Nat} (made : p < w.size) (name : String)
    (content : Content) : (w.mount p name content).Sound where
  child_lt n c mem := by
    rw [size_mount]
    by_cases parent : n = p
    · subst parent
      rw [node_mount_parent _ _ made] at mem
      rcases List.mem_append.1 mem with mem | mem
      · exact Nat.lt_succ_of_lt (sound.child_lt n c mem)
      · exact (List.mem_singleton.1 mem) ▸ Nat.lt_succ_self _
    · by_cases self : n = w.size
      -- the new node has no children yet
      · subst self
        rw [node_mount_self _ _ made] at mem
        exact absurd mem List.not_mem_nil
      · rw [node_mount_of_ne _ _ parent self] at mem
        exact Nat.lt_succ_of_lt (sound.child_lt n c mem)
  name_lt other n held := by
    rw [size_mount]
    by_cases same : other = name
    · subst same
      rw [names_mount_self] at held
      exact Option.some.inj held ▸ Nat.lt_succ_self _
    · rw [names_mount_of_ne _ _ same] at held
      exact Nat.lt_succ_of_lt (sound.name_lt other n held)
  unmade n le := by
    rw [size_mount] at le
    rw [node_mount_of_ne _ _ (by omega) (by omega)]
    exact sound.unmade n (by omega)

/-- Changes that leave the children of a node alone. -/
theorem Sound.modify {w : World V} (sound : w.Sound) {n : Nat} (made : n < w.size)
    {change : Node V → Node V} (same : (change (w.node n)).children = (w.node n).children) :
    (w.modify n change).Sound where
  child_lt m c mem := by
    rw [children_modify same] at mem
    exact sound.child_lt m c mem
  name_lt := sound.name_lt
  unmade m le := by
    have ne : m ≠ n := fun this => absurd made (Nat.not_lt.2 (this ▸ le))
    rw [node_modify_of_ne _ _ ne]
    exact sound.unmade m le

/-- Some names hold nothing any more. -/
theorem Sound.forget {w : World V} (sound : w.Sound) (name : String) :
    (w.bind name none).Sound where
  child_lt := sound.child_lt
  name_lt other n held := by
    by_cases same : other = name
    · simp [World.bind, same] at held
    · exact sound.name_lt other n (by rwa [names_bind_of_ne _ _ same] at held)
  unmade := sound.unmade

end World

/-! ## Names from before -/

/-- A name that is none of the bindings behind the first `count`. -/
def Older (count : Nat) (name : String) : Prop :=
  ∀ stem number, count < number → name ≠ Client.bindingName stem number

namespace Older

variable {count count' : Nat} {name : String}

theorem mono (h : Older count name) (le : count ≤ count') : Older count' name :=
  fun stem number lt => h stem number (Nat.lt_of_le_of_lt le lt)

theorem ne_next (h : Older count name) (stem : String) :
    name ≠ Client.bindingName stem (count + 1) :=
  h stem (count + 1) (Nat.lt_succ_self count)

theorem bindingName (stem : String) (number : Nat) :
    Older number (Client.bindingName stem number) := fun _ _ lt eq =>
  absurd (Client.bindingName_inj eq) (Nat.ne_of_lt lt)

theorem target (count : Nat) : Older count Vocabulary.target := fun stem number _ =>
  (Client.bindingName_ne (by decide) stem number).symm

end Older

/-- Whether documents differ only in what the bindings behind the first `count` hold. -/
structure Rebound (count : Nat) (w w₁ : World V) : Prop where
  size : w₁.size = w.size
  node : w₁.node = w.node
  kept : ∀ name, Older count name → w₁.names name = w.names name
  sound : w.Sound → w₁.Sound

theorem Rebound.refl {count : Nat} {w : World V} : Rebound count w w :=
  ⟨rfl, rfl, fun _ _ => rfl, id⟩

/-- The next binding comes to hold something that is no node. -/
theorem Rebound.forget {count : Nat} (w : World V) (stem : String) :
    Rebound count w (w.bind (Client.bindingName stem (count + 1)) none) :=
  ⟨rfl, rfl, fun _ older => w.names_bind_of_ne none (older.ne_next stem), fun h => h.forget _⟩

/-! ## The pieces of a draft -/

section

open Client

variable (options : Options) (analysis : Analysis)

theorem action?_assignTo (binding : String) (e : Expression) :
    action? (assignTo binding e) = assignment? binding e := rfl

theorem action?_removeChild (object node : String) :
    action? (invoke object "removeChild" [.identifier node]) = some (.remove object node) := rfl

theorem action?_setAttribute (object name : String) (e : Expression) :
    action? (invoke object "setAttribute" [.text name, e]) = some (.set object name e) := rfl

theorem action?_addEventListener (object event : String) (handler : Expression) :
    action? (invoke object "addEventListener" [.text event, handler]) =
      some (.listen object event handler) := rfl

theorem action?_removeEventListener (object event : String) (handler : Expression) :
    action? (invoke object "removeEventListener" [.text event, handler]) =
      some (.unlisten object event handler) := rfl

theorem action?_mount (place : Place) (node : String) :
    action? (mount options place node) = some (.append place.parent node) := by
  unfold mount
  cases options.hydratable <;> rfl

theorem assignment?_adoptOrCreate (binding : String) (place : Place) (fresh : Expression) :
    assignment? binding (adoptOrCreate options place fresh) = assignment? binding fresh := by
  unfold adoptOrCreate
  cases options.hydratable with
  | false => rfl
  | true => simp [assignment?]

theorem assignment?_embed (binding : String) (e : Script.Expression) :
    assignment? binding (embed e) = some (.hold binding) := by
  cases e <;> rfl

theorem assignment?_createElement (binding name : String) :
    assignment? binding (documentCall "createElement" (.text name)) =
      some (.make binding (.element name)) := rfl

theorem assignment?_createTextNode (binding : String) (data : Expression) :
    assignment? binding (documentCall "createTextNode" data) =
      some (.make binding (.text data)) := rfl

variable [DecidableEq V] (value : Expression → V) {w : World V}

/-- A node is made and mounted on its parent. -/
theorem replay_nodeDraft (place : Place) {node : String} {fresh : Expression} {content : Content}
    {p : Nat} (sound : w.Sound) (held : w.names place.parent = some p)
    (ne : place.parent ≠ node) (reads : assignment? node fresh = some (.make node content)) :
    replay value (nodeDraft options place node fresh).create w =
      some (w.mount p node content) := by
  have parent : (w.make node content).names place.parent = some p := by
    simpa [World.make, ne] using held
  have self : (w.make node content).names node = some w.size := by simp [World.make]
  simp only [nodeDraft, replay, action?_assignTo, assignment?_adoptOrCreate, reads, action?_mount,
    Option.bind_some, Action.perform, parent, self, bind]
  rw [World.append_make _ _ sound]

theorem replay_valueDraft {node : String} {n : Nat} (a : Attribute)
    (held : w.names node = some n) :
    replay value (valueDraft analysis node a).create w =
      some (w.modify n (Node.set a.name (embed (notifyTemplate analysis a.value)))) := by
  simp [valueDraft, replay, action?_setAttribute, Action.perform, held]

/-- A listener is added, and the one that was added is what is removed. -/
theorem replay_eventDraft (element : String) {node : String} (event : String) {n : Nat}
    (a : Attribute) {count : Nat} (held : w.names node = some n) (older : Older count node) :
    ∃ (w₁ : World V) (handler : Expression), Rebound count w w₁ ∧
      replay value (eventDraft analysis element node event a count).1.create w =
        some (w₁.modify n (Node.listen (event, value handler))) ∧
      (eventDraft analysis element node event a count).1.destroy =
        [invoke node "removeEventListener" [.text event, handler]] := by
  unfold eventDraft
  split
  · rename_i name _
    refine ⟨w, .identifier name, .refl, ?_, rfl⟩
    simp [listenerDraft, replay, action?_addEventListener, Action.perform, held]
  · -- the handler gets a binding of its own, which is not that of the element
    have other := w.names_bind_of_ne none (older.ne_next (element ++ "_" ++ event))
    refine ⟨_, .identifier _, .forget w (element ++ "_" ++ event), ?_, rfl⟩
    show replay value [assignTo _ (embed (notifyTemplate analysis a.value)),
      invoke node "addEventListener" _] w = _
    simp [replay, action?_assignTo, assignment?_embed, action?_addEventListener, Action.perform,
      other, held]

end

end ReactiveMarkup.Document
