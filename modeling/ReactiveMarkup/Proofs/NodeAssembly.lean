import Mathlib.Data.List.Forall2
import ReactiveMarkup.Proofs.ScopedWalk

/-!
# Nodes taken apart and put together

A transformation takes a node apart into its children, transforms these in order, and puts the node
together again. It leaves one child alone: the object of the member that an assignment or an update
writes to, which always comes first. The others are the open children.

`assemble` puts a node together from new open children. With the old ones it gives the node back
(`assemble_openChildren`), and with others of the same kinds it gives a node that has them as its
children, behind the one that was left alone (`children_assemble`).
-/

namespace ReactiveMarkup.Script.Node

/-- How many of the children of a node a transformation leaves alone. -/
def closedCount (x : Node) : Nat := if x.isTargetObject 0 then 1 else 0

/-- The children of a node that are transformed. -/
def openChildren (x : Node) : List Node := x.children.drop x.closedCount

theorem openChildren_subset (x : Node) : x.openChildren ⊆ x.children := List.drop_subset _ _

theorem closedCount_le (x : Node) : x.closedCount ≤ x.children.length := by
  unfold closedCount
  split
  · rename_i object
    cases x with
    | expression e =>
      cases e with
      | assignment operator target right => simp [children, ofExpression]
      | update operator leading target =>
        cases target <;> simp [isTargetObject, Expression.target?, Target.object?] at object
        simp [children, ofExpression, Target.object?]
      | _ => simp [isTargetObject, Expression.target?] at object
    | _ => simp [isTargetObject] at object
  · exact Nat.zero_le _

/-! ## Putting together -/

/-- The statement that a node is. -/
def statement? : Node → Option Statement
  | .statement s => some s
  | _ => none

/-- The binding that a node is. -/
def declarator? : Node → Option Declarator
  | .declarator _ d => some d
  | _ => none

/-- An expression with other open children. -/
def assembleExpression : Expression → List Node → Expression
  | .binary _ operator _, [.expression left, .expression right] => .binary left operator right
  | .assignment operator target _, [.expression right] => .assignment operator target right
  | .call _ _ optional, .expression callee :: arguments =>
    .call callee (arguments.filterMap expression?) optional
  | .member _ property optional, [.expression object] => .member object property optional
  | .parenthesized _, [.expression inner] => .parenthesized inner
  | .sequence _, items => .sequence (items.filterMap expression?)
  | .function _, [.function f] => .function f
  | e, _ => e

/-- A statement with other children. -/
def assembleStatement : Statement → List Node → Statement
  | .declaration kind _, items => .declaration kind (items.filterMap declarator?)
  | .function _, [.function f] => .function f
  | .expression _, [.expression e] => .expression e
  | .block id _, body => .block id (body.filterMap statement?)
  | .conditional _ _ none, [.expression test, .statement consequent] =>
    .conditional test consequent none
  | .conditional _ _ (some _), [.expression test, .statement consequent, .statement alternate] =>
    .conditional test consequent (some alternate)
  | .result (some _), [.expression value] => .result (some value)
  | .labeled label _, [.statement body] => .labeled label body
  | s, _ => s

/-- A function with other children. -/
def assembleFunction : Function → List Node → Function
  | ⟨id, signature, .block _⟩, body => ⟨id, signature, .block (body.filterMap statement?)⟩
  | ⟨id, signature, .expression _⟩, [.expression value] => ⟨id, signature, .expression value⟩
  | f, _ => f

/-- A binding with another initial value. -/
def assembleDeclarator : Declarator → List Node → Declarator
  | ⟨pattern, some _⟩, [.expression init] => ⟨pattern, some init⟩
  | d, _ => d

/-- A node with other open children. -/
def assemble : Node → List Node → Node
  | .script _, body => .script (body.filterMap statement?)
  | .statement s, ys => .statement (assembleStatement s ys)
  | .declarator kind d, ys => .declarator kind (assembleDeclarator d ys)
  | .function f, ys => .function (assembleFunction f ys)
  | .expression e, ys => .expression (assembleExpression e ys)

/-- Whether a node can stand where another one stood. -/
inductive Alike : Node → Node → Prop
  | script (body body' : List Statement) : Alike (.script body) (.script body')
  | statement (s s' : Statement) : Alike (.statement s) (.statement s')
  | declarator (kind : DeclarationKind) (d d' : Declarator) :
    Alike (.declarator kind d) (.declarator kind d')
  | function (f f' : Function) : Alike (.function f) (.function f')
  | expression (e e' : Expression) : Alike (.expression e) (.expression e')

theorem alike_refl (x : Node) : Alike x x := by
  cases x <;> constructor

theorem alike_assemble (x : Node) (ys : List Node) : Alike x (x.assemble ys) := by
  cases x <;> constructor

/-- Nodes of one kind can be read back from nodes that stand where they stood. -/
theorem map_filterMap_of_alike {α : Type} {wrap : α → Node} {unwrap : Node → Option α}
    (readsBack : ∀ a y, Alike (wrap a) y → (unwrap y).map wrap = some y) {as : List α}
    {ys : List Node} (alike : List.Forall₂ Alike (as.map wrap) ys) :
    (ys.filterMap unwrap).map wrap = ys := by
  induction as generalizing ys with
  | nil =>
    cases alike
    rfl
  | cons a rest ih =>
    obtain ⟨y, others, first, alikeOthers, rfl⟩ := List.forall₂_cons_left_iff.1 alike
    obtain ⟨b, has, same⟩ := Option.map_eq_some_iff.1 (readsBack a y first)
    rw [List.filterMap_cons_some has, List.map_cons, ih alikeOthers, same]

theorem map_expressions_of_alike {es : List Expression} {ys : List Node}
    (alike : List.Forall₂ Alike (es.map .expression) ys) :
    (ys.filterMap expression?).map .expression = ys :=
  map_filterMap_of_alike (fun _ _ same => by cases same; rfl) alike

theorem map_statements_of_alike {ss : List Statement} {ys : List Node}
    (alike : List.Forall₂ Alike (ss.map .statement) ys) :
    (ys.filterMap statement?).map .statement = ys :=
  map_filterMap_of_alike (fun _ _ same => by cases same; rfl) alike

theorem map_declarators_of_alike {kind : DeclarationKind} {ds : List Declarator} {ys : List Node}
    (alike : List.Forall₂ Alike (ds.map (.declarator kind)) ys) :
    (ys.filterMap declarator?).map (.declarator kind) = ys :=
  map_filterMap_of_alike (fun _ _ same => by cases same; rfl) alike

theorem ofExpression_assemble {e : Expression} {ys : List Node}
    (alike : List.Forall₂ Alike (Node.expression e).openChildren ys) :
    ofExpression (assembleExpression e ys) =
      (ofExpression e).take (Node.expression e).closedCount ++ ys := by
  -- the parts are of the kinds that the expression has, so each case names them
  cases e with
  | identifier name =>
    obtain rfl := List.forall₂_nil_left_iff.1 alike
    rfl
  | binary left operator right =>
    change List.Forall₂ Alike [.expression left, .expression right] ys at alike
    rcases alike with _ | ⟨⟨⟩, _ | ⟨⟨⟩, ⟨⟩⟩⟩
    rfl
  | assignment operator target right =>
    cases target <;>
    · change List.Forall₂ Alike [.expression right] ys at alike
      rcases alike with _ | ⟨⟨⟩, ⟨⟩⟩
      rfl
  | update operator leading target =>
    cases target <;>
    · obtain rfl := List.forall₂_nil_left_iff.1 alike
      rfl
  | call callee arguments optional =>
    change List.Forall₂ Alike (.expression callee :: arguments.map .expression) ys at alike
    rcases alike with _ | ⟨⟨⟩, others⟩
    exact congrArg (List.cons _) (map_expressions_of_alike others)
  | member object property optional =>
    change List.Forall₂ Alike [.expression object] ys at alike
    rcases alike with _ | ⟨⟨⟩, ⟨⟩⟩
    rfl
  | parenthesized inner =>
    change List.Forall₂ Alike [.expression inner] ys at alike
    rcases alike with _ | ⟨⟨⟩, ⟨⟩⟩
    rfl
  | sequence items => exact map_expressions_of_alike alike
  | function f =>
    change List.Forall₂ Alike [.function f] ys at alike
    rcases alike with _ | ⟨⟨⟩, ⟨⟩⟩
    rfl
  | verbatim source references =>
    obtain rfl := List.forall₂_nil_left_iff.1 alike
    rfl

theorem ofStatement_assemble {s : Statement} {ys : List Node}
    (alike : List.Forall₂ Alike (ofStatement s) ys) :
    ofStatement (assembleStatement s ys) = ys := by
  cases s with
  | declaration kind items => exact map_declarators_of_alike alike
  | function f =>
    rcases alike with _ | ⟨⟨⟩, ⟨⟩⟩
    rfl
  | expression e =>
    rcases alike with _ | ⟨⟨⟩, ⟨⟩⟩
    rfl
  | block id body => exact map_statements_of_alike alike
  | conditional test consequent alternate =>
    cases alternate with
    | none =>
      rcases alike with _ | ⟨⟨⟩, _ | ⟨⟨⟩, ⟨⟩⟩⟩
      rfl
    | some alternate =>
      rcases alike with _ | ⟨⟨⟩, _ | ⟨⟨⟩, _ | ⟨⟨⟩, ⟨⟩⟩⟩⟩
      rfl
  | result value =>
    cases value with
    | none =>
      obtain rfl := List.forall₂_nil_left_iff.1 alike
      rfl
    | some e =>
      rcases alike with _ | ⟨⟨⟩, ⟨⟩⟩
      rfl
  | labeled label body =>
    rcases alike with _ | ⟨⟨⟩, ⟨⟩⟩
    rfl
  | verbatim source references =>
    obtain rfl := List.forall₂_nil_left_iff.1 alike
    rfl

/-- **A node that is put together has the given children**, behind the one that was left alone. -/
theorem children_assemble {x : Node} {ys : List Node}
    (alike : List.Forall₂ Alike x.openChildren ys) :
    (x.assemble ys).children = x.children.take x.closedCount ++ ys := by
  cases x with
  | script body => exact map_statements_of_alike alike
  | statement s => exact ofStatement_assemble alike
  | declarator kind d =>
    obtain ⟨pattern, init⟩ := d
    cases init with
    | none =>
      obtain rfl := List.forall₂_nil_left_iff.1 alike
      rfl
    | some e =>
      change List.Forall₂ Alike [.expression e] ys at alike
      rcases alike with _ | ⟨⟨⟩, ⟨⟩⟩
      rfl
  | function f =>
    obtain ⟨id, signature, body⟩ := f
    cases body with
    | block body => exact map_statements_of_alike alike
    | expression value =>
      change List.Forall₂ Alike [.expression value] ys at alike
      rcases alike with _ | ⟨⟨⟩, ⟨⟩⟩
      rfl
  | expression e => exact ofExpression_assemble alike

theorem filterMap_expressions (es : List Expression) :
    (es.map .expression).filterMap expression? = es := by
  simp [List.filterMap_map, Function.comp_def, expression?]

theorem filterMap_statements (ss : List Statement) :
    (ss.map .statement).filterMap statement? = ss := by
  simp [List.filterMap_map, Function.comp_def, statement?]

theorem filterMap_declarators (kind : DeclarationKind) (ds : List Declarator) :
    (ds.map (.declarator kind)).filterMap declarator? = ds := by
  simp [List.filterMap_map, Function.comp_def, declarator?]

/-- **With its own open children a node is put together as it was.** -/
theorem assemble_openChildren (x : Node) : x.assemble x.openChildren = x := by
  cases x with
  | script body => exact congrArg Node.script (filterMap_statements body)
  | statement s =>
    cases s with
    | declaration kind items =>
      exact congrArg (fun items => Node.statement (.declaration kind items))
        (filterMap_declarators kind items)
    | block id body =>
      exact congrArg (fun body => Node.statement (.block id body)) (filterMap_statements body)
    | conditional test consequent alternate => cases alternate <;> rfl
    | result value => cases value <;> rfl
    | _ => rfl
  | declarator kind d =>
    obtain ⟨pattern, init⟩ := d
    cases init <;> rfl
  | function f =>
    obtain ⟨id, signature, body⟩ := f
    cases body with
    | block body =>
      exact congrArg (fun body => Node.function ⟨id, signature, .block body⟩)
        (filterMap_statements body)
    | expression value => rfl
  | expression e =>
    cases e with
    | assignment operator target right => cases target <;> rfl
    | update operator leading target => cases target <;> rfl
    | call callee arguments optional =>
      exact congrArg (fun arguments => Node.expression (.call callee arguments optional))
        (filterMap_expressions arguments)
    | sequence items =>
      exact congrArg (fun items => Node.expression (.sequence items)) (filterMap_expressions items)
    | _ => rfl

end ReactiveMarkup.Script.Node
