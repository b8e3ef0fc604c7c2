import ReactiveMarkup.Script.Tree
import ReactiveMarkup.Text.Bytes

/-!
# Markup trees

Markup is a list of fragments: elements, texts and interpolated expressions. A component is its
markup and its script. Offsets, depths and indices are natural numbers that stand for numbers of 32
bits, as for sources of less than 4 GiB.
-/

namespace ReactiveMarkup

open Script (Expression Statement)

/-- A named value of an element. -/
structure Attribute where
  name : String
  value : Expression

/-- The event that an attribute listens to: what its name holds after the event marker. -/
def Attribute.event? (marker : String) (a : Attribute) : Option String :=
  match Text.stripLead? marker.toList a.name.toList with
  | some (c :: rest) => some (String.ofList (c :: rest))
  | _ => none

/-- One node of a markup tree. -/
inductive Fragment
  /-- An element, with the byte offset of its start. -/
  | element (name : String) (attributes : List Attribute) (children : List Fragment)
      (offset : Nat)
  | text (value : String)
  | expression (expression : Expression)

instance : Inhabited Fragment := ⟨.text ""⟩

/-- Markup with its script. -/
structure Component where
  html : List Fragment
  script : List Statement

mutual

/-- The expressions of a fragment in source order, attributes before children. -/
def Fragment.expressions : Fragment → List Expression
  | .element _ attributes children _ =>
    attributes.map Attribute.value ++ Fragment.allExpressions children
  | .text _ => []
  | .expression e => [e]
termination_by structural f => f

/-- The expressions of some fragments. -/
def Fragment.allExpressions : List Fragment → List Expression
  | [] => []
  | f :: rest => f.expressions ++ Fragment.allExpressions rest
termination_by structural fs => fs

end

mutual

/-- The expressions of a fragment that are rendered: event listeners are left out. -/
def Fragment.rendered (marker : String) : Fragment → List Expression
  | .element _ attributes children _ =>
    (attributes.filter fun a => (a.event? marker).isNone).map Attribute.value ++
      Fragment.allRendered marker children
  | .text _ => []
  | .expression e => [e]
termination_by structural f => f

/-- The rendered expressions of some fragments. -/
def Fragment.allRendered (marker : String) : List Fragment → List Expression
  | [] => []
  | f :: rest => f.rendered marker ++ Fragment.allRendered marker rest
termination_by structural fs => fs

end

/-- How many nodes a fragment takes up among the rendered children of its parent: text is followed
by a marker comment. -/
def Fragment.width : Fragment → Nat
  | .element .. => 1
  | .text _ => 2
  | .expression _ => 2

/-- Where a rendered node is found again: its index among the children of its parent, and the depth
of the parent. -/
structure HydrationSlot where
  depth : Nat
  index : Nat
deriving DecidableEq, Repr

end ReactiveMarkup
