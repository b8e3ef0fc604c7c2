import ReactiveMarkup.Options
import ReactiveMarkup.Reactivity.Recomputation

/-!
# Rendering as a template literal

A server module renders the markup of a component as one template literal. Text and interpolations
are followed by a marker comment, so that each is a node of its own when a client adopts it.

Depths and indices of slots are natural numbers that stand for counters of 32 bits, as in the client
module; markup from a source of less than 4 GiB does not exceed these.
-/

namespace ReactiveMarkup.Server

open Emission (Expression TemplatePart)

/-- Separates neighbouring texts of rendered markup. -/
def hydrationMarker : String := "<!---->"

/-- Rendered in place of an empty interpolation, since markup has no empty texts. -/
def emptyText : String := "\u200b"

/-- An expression escaped for markup. -/
def escaped (e : Script.Expression) : Expression :=
  .call (.identifier Vocabulary.escape) [embed e]

section

variable (marker : String)

/-- The pieces of an attribute; listeners are not rendered. -/
def attributeParts (a : Attribute) : List TemplatePart :=
  if (a.event? marker).isSome then []
  else [.literal (" " ++ a.name ++ "=\""), .slot (escaped a.value), .literal "\""]

mutual

/-- The pieces of a fragment. -/
def fragmentParts : Fragment → List TemplatePart
  | .element name attributes children _ =>
    .literal ("<" ++ name) :: attributes.flatMap (attributeParts marker) ++
      [.literal ">"] ++ fragmentsParts children ++ [.literal ("</" ++ name ++ ">")]
  | .text value => [.literal value, .literal hydrationMarker]
  | .expression e =>
    [.slot (.binary (escaped e) "||" (.text emptyText)), .literal hydrationMarker]
termination_by structural f => f

/-- The pieces of some fragments. -/
def fragmentsParts : List Fragment → List TemplatePart
  | [] => []
  | f :: rest => fragmentParts f ++ fragmentsParts rest
termination_by structural fs => fs

end

end

/-- Some pieces and one more. A literal continues the literal before it. -/
def addPart (parts : List TemplatePart) (part : TemplatePart) : List TemplatePart :=
  match parts.getLast?, part with
  | some (.literal before), .literal text => parts.dropLast ++ [.literal (before ++ text)]
  | _, part => parts ++ [part]

/-- The template literal of some markup, joined while its pieces are added. -/
def templateParts (marker : String) (html : List Fragment) : List TemplatePart :=
  (fragmentsParts marker html).foldl addPart []

/-- Joins neighbouring literal pieces. -/
def mergeLiterals : List TemplatePart → List TemplatePart
  | [] => []
  | .slot e :: rest => .slot e :: mergeLiterals rest
  | .literal text :: rest =>
    match mergeLiterals rest with
    | .literal more :: others => .literal (text ++ more) :: others
    | others => .literal text :: others

section

variable (e : Expression) (first second part : TemplatePart) (parts pieces : List TemplatePart)

theorem addPart_cons_cons :
    addPart (first :: second :: parts) part = first :: addPart (second :: parts) part := by
  unfold addPart
  rw [List.getLast?_cons_cons, List.dropLast_cons_cons]
  split <;> rfl

theorem addPart_slot_cons : addPart (.slot e :: parts) part = .slot e :: addPart parts part := by
  cases parts with
  | nil => rfl
  | cons second parts => exact addPart_cons_cons _ second part parts

/-- Joining from the front and adding at the end agree: the two meet only when all pieces together
are one literal. -/
theorem mergeLiterals_concat :
    mergeLiterals (pieces ++ [part]) = addPart (mergeLiterals pieces) part := by
  induction pieces with
  | nil => cases part <;> rfl
  | cons piece rest ih =>
    cases piece with
    | slot e => rw [List.cons_append, mergeLiterals, mergeLiterals, ih, addPart_slot_cons]
    | literal text =>
      rw [List.cons_append, mergeLiterals, mergeLiterals, ih]
      cases mergeLiterals rest with
      | nil => cases part <;> rfl
      | cons next others =>
        cases next with
        | slot e => simp only [addPart_slot_cons, addPart_cons_cons]
        | literal more =>
          cases others with
          | nil => cases part <;> simp [addPart, String.append_assoc]
          | cons => simp only [addPart_cons_cons]

theorem foldl_addPart (added : List TemplatePart) :
    added.foldl addPart (mergeLiterals pieces) = mergeLiterals (pieces ++ added) := by
  induction added generalizing pieces with
  | nil => rw [List.append_nil]; rfl
  | cons part added ih =>
    rw [List.foldl_cons, ← mergeLiterals_concat, ih, List.append_assoc, List.singleton_append]

end

theorem templateParts_eq (marker : String) (html : List Fragment) :
    templateParts marker html = mergeLiterals (fragmentsParts marker html) :=
  foldl_addPart [] _

mutual

/-- The hydration slots of a fragment at an index of a parent of the given depth. -/
def fragmentSlots (depth index : Nat) : Fragment → List HydrationSlot
  | .element _ _ children _ => ⟨depth, index⟩ :: fragmentsSlots (depth + 1) 0 children
  | .text _ => [⟨depth, index⟩]
  | .expression _ => [⟨depth, index⟩]
termination_by structural f => f

/-- The hydration slots of neighbouring fragments. -/
def fragmentsSlots (depth index : Nat) : List Fragment → List HydrationSlot
  | [] => []
  | f :: rest =>
    fragmentSlots depth index f ++ fragmentsSlots depth (index + f.width) rest
termination_by structural fs => fs

end

end ReactiveMarkup.Server
