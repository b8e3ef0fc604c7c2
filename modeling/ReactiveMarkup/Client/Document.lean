import ReactiveMarkup.Client.Notification
import ReactiveMarkup.Options
import ReactiveMarkup.Reactivity.Recomputation

/-!
# Building and updating a document

For each fragment a client module holds a binding, statements that create the node and mount it,
statements that update it, and statements that take it down. A `Draft` collects these in source
order; the drafts of neighbouring fragments are appended.

The number of a binding, the depth of a parent and the index of a child are natural numbers that
stand for counters of 32 bits. Markup from a source of less than 4 GiB does not exceed these.
-/

namespace ReactiveMarkup.Client

open Emission (Statement Expression)

/-- The code for some fragments. -/
structure Draft where
  /-- The bindings that hold nodes and handlers. -/
  bindings : List String
  create : List Statement
  update : List Statement
  /-- What undoes `create`, in the order of creation. -/
  destroy : List Statement
  hydration : List HydrationSlot

namespace Draft

/-- The code for no fragment. -/
def empty : Draft := ⟨[], [], [], [], []⟩

/-- The code for some fragments and then some others. -/
def append (x y : Draft) : Draft where
  bindings := x.bindings ++ y.bindings
  create := x.create ++ y.create
  update := x.update ++ y.update
  destroy := x.destroy ++ y.destroy
  hydration := x.hydration ++ y.hydration

instance : Append Draft := ⟨append⟩

end Draft

/-- The place of a node: the binding of its parent, its index there, and the depth of the
parent. -/
structure Place where
  parent : String
  index : Nat
  depth : Nat

/-- A character as it may stand in a generated name. -/
def bindingChar (c : Char) : Char := if c.isAlphanum then c else '_'

/-- The binding of the given number. -/
def bindingName (stem : String) (number : Nat) : String :=
  "$$" ++ String.ofList (stem.toList.map bindingChar) ++ "_" ++ toString number

/-- `object.method(argument, …);` -/
def invoke (object method : String) (arguments : List Expression) : Statement :=
  .expression (.callMethod (.identifier object) method arguments)

/-- `name = value;` -/
def assignTo (name : String) (value : Expression) : Statement :=
  .expression (.assign (.identifier name) value)

section

variable (options : Options)

/-- A fresh node, or the rendered node in its place when rendered nodes are adopted. -/
def adoptOrCreate (place : Place) (fresh : Expression) : Expression :=
  if options.hydratable then
    .conditional (.identifier Vocabulary.hydrate)
      (.index (.member (.identifier place.parent) "childNodes") (.number place.index)) fresh
  else fresh

/-- Puts a node into its parent, unless rendered nodes are adopted. -/
def mount (place : Place) (node : String) : Statement :=
  let append := invoke place.parent "appendChild" [.identifier node]
  if options.hydratable then
    .guarded (.unary "!" (.identifier Vocabulary.hydrate)) [append]
  else append

/-- The code that creates a node and mounts it. -/
def nodeDraft (place : Place) (node : String) (fresh : Expression) : Draft where
  bindings := [node]
  create := [assignTo node (adoptOrCreate options place fresh), mount options place node]
  update := []
  destroy := [invoke place.parent "removeChild" [.identifier node]]
  hydration := if options.hydratable then [⟨place.depth, place.index⟩] else []

variable (analysis : Analysis)

/-- The rule that applies a statement again when a name that an expression reads has changed.
There is none if no such name changes. -/
def updateRule (e : Script.Expression) (apply : Statement) : List Statement :=
  match e.references.filter analysis.willChange.contains with
  | [] => []
  | name :: names => [.guarded (changedTest (name :: names) Vocabulary.changed) [apply]]

/-- The code for an attribute that is rendered. -/
def valueDraft (node : String) (a : Attribute) : Draft :=
  let set :=
    invoke node "setAttribute" [.text a.name, embed (notifyTemplate analysis a.value)]
  { Draft.empty with create := [set], update := updateRule analysis a.value set }

/-- The code that adds a listener, and the one that removes it. -/
def listenerDraft (node event handler : String) : Draft :=
  { Draft.empty with
    create := [invoke node "addEventListener" [.text event, .identifier handler]]
    destroy := [invoke node "removeEventListener" [.text event, .identifier handler]] }

/-- The code for an attribute that listens to an event. A handler that is not a plain name gets a
binding, so that the listener can be removed. -/
def eventDraft (element node event : String) (a : Attribute) (count : Nat) : Draft × Nat :=
  match notifyTemplate analysis a.value with
  | .identifier name => (listenerDraft node event name, count)
  | handler =>
    let binding := bindingName (element ++ "_" ++ event) (count + 1)
    ({ Draft.empty with bindings := [binding], create := [assignTo binding (embed handler)] } ++
      listenerDraft node event binding, count + 1)

/-- The code for the attributes of an element. -/
def attributesDraft (element node : String) : List Attribute → Nat → Draft × Nat
  | [], count => (.empty, count)
  | a :: rest, count =>
    let first :=
      match a.event? options.eventMarker with
      | some event => eventDraft analysis element node event a count
      | none => (valueDraft analysis node a, count)
    let others := attributesDraft element node rest first.2
    (first.1 ++ others.1, others.2)

/-- `document.method(argument)` -/
def documentCall (method : String) (argument : Expression) : Expression :=
  .callMethod (.identifier "document") method [argument]

mutual

/-- The code for a fragment, given how many bindings there are before. -/
def fragmentDraft (place : Place) (count : Nat) : Fragment → Draft × Nat
  | .element name attributes children _ =>
    let node := bindingName name (count + 1)
    let own := attributesDraft options analysis name node attributes (count + 1)
    let inner := fragmentsDraft ⟨node, 0, place.depth + 1⟩ own.2 children
    (nodeDraft options place node (documentCall "createElement" (.text name)) ++ own.1 ++ inner.1,
      inner.2)
  | .text value =>
    (nodeDraft options place (bindingName "t" (count + 1))
      (documentCall "createTextNode" (.text value)), count + 1)
  | .expression e =>
    let node := bindingName "t" (count + 1)
    let value := embed (notifyTemplate analysis e)
    let apply := Statement.expression (.assign (.member (.identifier node) "data") value)
    (nodeDraft options place node (documentCall "createTextNode" value) ++
      { Draft.empty with update := updateRule analysis e apply }, count + 1)
termination_by structural f => f

/-- The code for neighbouring fragments; the place is that of the first. -/
def fragmentsDraft (place : Place) (count : Nat) : List Fragment → Draft × Nat
  | [] => (.empty, count)
  | f :: rest =>
    let first := fragmentDraft place count f
    let others :=
      fragmentsDraft { place with index := place.index + f.width } first.2 rest
    (first.1 ++ others.1, others.2)
termination_by structural fs => fs

end

end

/-- The code for the markup of a component. -/
def documentDraft (options : Options) (analysis : Analysis) (html : List Fragment) : Draft :=
  (fragmentsDraft options analysis ⟨Vocabulary.target, 0, 0⟩ 0 html).1

end ReactiveMarkup.Client
