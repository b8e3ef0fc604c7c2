import ReactiveMarkup.Proofs.LegibleStatement

/-!
# Generated expressions are unambiguous

Two expressions of the kind that modules are built from have the same text, at one depth, only if
they are the same tree. The printer decides about parentheses node by node: where an operand stands,
by the kind of the operand alone. That this is enough follows from a reader of the texts that gives
back every tree: by induction on the tree, with one lemma for each kind of node.

Script text is left out, because it may hold anything. So are unary operations with an access or a
call behind them: the printer writes them as the operation on the whole.
-/

namespace ReactiveMarkup.Emission

open Filter (atTop)
open Script (isSpelled)

/-! ## Legible trees -/

/-- Whether a list of template parts starts with a literal. -/
def startsLiteral : List TemplatePart → Bool
  | .literal _ :: _ => true
  | _ => false

mutual

/-- Whether an expression is one whose text shows the tree. There is no script text in it; its names
are spelled as names are, and none that stands alone is a truth value; its operators are those of
generated code; no assignment goes to an expression in parentheses; no unary operation has an access
or a call behind it; and the literals of its templates are not empty and are kept apart by slots. -/
def Expression.isLegible : Expression → Bool
  | .identifier name => isSpelled name && name != "true" && name != "false"
  | .text _ => true
  | .number _ => true
  | .boolean _ => true
  | .array items => Expression.areLegible items
  | .member object property => object.isLegible && !object.isUnary && isSpelled property
  | .index object key => object.isLegible && !object.isUnary && key.isLegible
  | .call callee arguments =>
    callee.isLegible && !callee.isUnary && Expression.areLegible arguments
  | .assign target value => target.isLegible && !target.isLoose && value.isLegible
  | .unary operator argument => operator == "!" && argument.isLegible
  | .binary left operator right =>
    left.isLegible && (operator == "||" || operator == ">") && right.isLegible
  | .conditional test consequent alternate =>
    test.isLegible && consequent.isLegible && alternate.isLegible
  | .arrow params body => params.all isSpelled && body.isLegible
  | .object methods => Method.areLegible methods
  | .template parts => TemplatePart.areLegible parts
  | .verbatim _ => false
termination_by structural e => e

/-- Whether some expressions all are. -/
def Expression.areLegible : List Expression → Bool
  | [] => true
  | e :: rest => e.isLegible && Expression.areLegible rest
termination_by structural es => es

/-- Whether the parts of a template are. -/
def TemplatePart.areLegible : List TemplatePart → Bool
  | [] => true
  | .literal text :: rest => text != "" && !startsLiteral rest && TemplatePart.areLegible rest
  | .slot e :: rest => e.isLegible && TemplatePart.areLegible rest
termination_by structural parts => parts

/-- Whether some parameters are. -/
def Parameter.areLegible : List Parameter → Bool
  | [] => true
  | ⟨name, none⟩ :: rest => isSpelled name && Parameter.areLegible rest
  | ⟨name, some fallback⟩ :: rest =>
    isSpelled name && fallback.isLegible && Parameter.areLegible rest
termination_by structural ps => ps

/-- Whether a method is. -/
def Method.isLegible : Method → Bool
  | ⟨name, params, body⟩ =>
    isSpelled name && Parameter.areLegible params && Statement.areLegible body
termination_by structural m => m

/-- Whether some methods all are. -/
def Method.areLegible : List Method → Bool
  | [] => true
  | m :: rest => m.isLegible && Method.areLegible rest
termination_by structural ms => ms

/-- Whether a statement is. -/
def Statement.isLegible : Statement → Bool
  | .declare name none => isSpelled name
  | .declare name (some init) => isSpelled name && init.isLegible
  | .constant name init => isSpelled name && init.isLegible
  | .expression e => e.isLegible
  | .guarded test body => test.isLegible && Statement.areLegible body
  | .result value => value.isLegible
  | .function name params body =>
    isSpelled name && params.all isSpelled && Statement.areLegible body
  | .loop test body => test.isLegible && Statement.areLegible body
  | .each binding iterable body =>
    isSpelled binding && iterable.isLegible && Statement.areLegible body
  | .ensured body finalizer => Statement.areLegible body && Statement.areLegible finalizer
  | .verbatim _ => false
termination_by structural s => s

/-- Whether some statements all are. -/
def Statement.areLegible : List Statement → Bool
  | [] => true
  | s :: rest => s.isLegible && Statement.areLegible rest
termination_by structural ss => ss

end

/-! ## Legible trees are read back -/

mutual

/-- The text of a legible expression is read as that expression. -/
theorem Expression.readsBack (e : Expression) (legible : e.isLegible = true) : e.ReadsBack := by
  cases e with
  | identifier name =>
    simp only [Expression.isLegible, Bool.and_eq_true, bne_iff_ne] at legible
    exact readsBack_identifier legible.1.1 ⟨legible.1.2, legible.2⟩
  | text value => exact readsBack_text value
  | number value => exact readsBack_number value
  | boolean value => exact readsBack_boolean value
  | array items => exact readsBack_array (Expression.readBack_all items legible)
  | member object property =>
    simp only [Expression.isLegible, Bool.and_eq_true, Bool.not_eq_true'] at legible
    exact readsBack_member (object.readsBack legible.1.1) legible.1.2 legible.2
  | index object key =>
    simp only [Expression.isLegible, Bool.and_eq_true, Bool.not_eq_true'] at legible
    exact readsBack_index (object.readsBack legible.1.1) legible.1.2 (key.readsBack legible.2)
  | call callee arguments =>
    simp only [Expression.isLegible, Bool.and_eq_true, Bool.not_eq_true'] at legible
    exact readsBack_call (callee.readsBack legible.1.1) legible.1.2
      (Expression.readBack_all arguments legible.2)
  | assign target value =>
    simp only [Expression.isLegible, Bool.and_eq_true, Bool.not_eq_true'] at legible
    exact readsBack_assign (target.readsBack legible.1.1) legible.1.2 (value.readsBack legible.2)
  | unary operator argument =>
    simp only [Expression.isLegible, Bool.and_eq_true, beq_iff_eq] at legible
    obtain ⟨rfl, legible⟩ := legible
    exact readsBack_not (argument.readsBack legible)
  | binary left operator right =>
    simp only [Expression.isLegible, Bool.and_eq_true, Bool.or_eq_true, beq_iff_eq] at legible
    exact readsBack_binary (left.readsBack legible.1.1) legible.1.2 (right.readsBack legible.2)
  | conditional test consequent alternate =>
    simp only [Expression.isLegible, Bool.and_eq_true] at legible
    exact readsBack_conditional (test.readsBack legible.1.1) (consequent.readsBack legible.1.2)
      (alternate.readsBack legible.2)
  | arrow params body =>
    simp only [Expression.isLegible, Bool.and_eq_true, List.all_eq_true] at legible
    exact readsBack_arrow legible.1 (body.readsBack legible.2)
  | object methods => exact readsBack_object (Method.readBack_all methods legible)
  | template parts => exact readsBack_template (TemplatePart.readBack parts legible)
  | verbatim code => cases legible
termination_by structural e

theorem Expression.readBack_all (es : List Expression) (legible : Expression.areLegible es = true) :
    ∀ e ∈ es, e.ReadsBack := by
  cases es with
  | nil => nofun
  | cons e rest =>
    simp only [Expression.areLegible, Bool.and_eq_true] at legible
    exact List.forall_mem_cons.2 ⟨e.readsBack legible.1, Expression.readBack_all rest legible.2⟩
termination_by structural es

theorem TemplatePart.readBack (parts : List TemplatePart)
    (legible : TemplatePart.areLegible parts = true) : TemplatePart.ReadBack parts := by
  cases parts with
  | nil => exact readBack_noParts
  | cons part rest =>
    cases part with
    | literal text =>
      simp only [TemplatePart.areLegible, Bool.and_eq_true, bne_iff_ne,
        Bool.not_eq_true'] at legible
      -- two literals in a row would be read as one
      refine readBack_literal legible.1.1 (fun _ _ same => ?_)
        (TemplatePart.readBack rest legible.2)
      rw [same] at legible
      cases legible.1.2
    | slot e =>
      simp only [TemplatePart.areLegible, Bool.and_eq_true] at legible
      exact readBack_slot (e.readsBack legible.1) (TemplatePart.readBack rest legible.2)
termination_by structural parts

theorem Parameter.readBack_all (ps : List Parameter) (legible : Parameter.areLegible ps = true) :
    ∀ p ∈ ps, p.ReadsBack := by
  cases ps with
  | nil => nofun
  | cons p rest =>
    obtain ⟨name, fallback⟩ := p
    cases fallback with
    | none =>
      simp only [Parameter.areLegible, Bool.and_eq_true] at legible
      exact List.forall_mem_cons.2 ⟨⟨legible.1, nofun⟩, Parameter.readBack_all rest legible.2⟩
    | some fallback =>
      simp only [Parameter.areLegible, Bool.and_eq_true] at legible
      have reads := fallback.readsBack legible.1.2
      refine List.forall_mem_cons.2 ⟨⟨legible.1.1, fun e same => ?_⟩,
        Parameter.readBack_all rest legible.2⟩
      rwa [← Option.some.inj same]
termination_by structural ps

theorem Method.readsBack (m : Method) (legible : m.isLegible = true) : m.ReadsBack := by
  obtain ⟨name, params, body⟩ := m
  simp only [Method.isLegible, Bool.and_eq_true] at legible
  exact ⟨legible.1.1, Parameter.readBack_all params legible.1.2,
    Statement.readBack_all body legible.2⟩
termination_by structural m

theorem Method.readBack_all (ms : List Method) (legible : Method.areLegible ms = true) :
    ∀ m ∈ ms, m.ReadsBack := by
  cases ms with
  | nil => nofun
  | cons m rest =>
    simp only [Method.areLegible, Bool.and_eq_true] at legible
    exact List.forall_mem_cons.2 ⟨m.readsBack legible.1, Method.readBack_all rest legible.2⟩
termination_by structural ms

theorem Statement.readsBack (s : Statement) (legible : s.isLegible = true) : s.ReadsBack := by
  cases s with
  | declare name init =>
    cases init with
    | none => exact readsBack_declare ⟨legible, nofun⟩
    | some init =>
      simp only [Statement.isLegible, Bool.and_eq_true] at legible
      have reads := init.readsBack legible.2
      refine readsBack_declare ⟨legible.1, fun e same => ?_⟩
      rwa [← Option.some.inj same]
  | constant name init =>
    simp only [Statement.isLegible, Bool.and_eq_true] at legible
    exact readsBack_constant (init.readsBack legible.2) legible.1
  | expression e => exact readsBack_expression (e.readsBack legible)
  | guarded test body =>
    simp only [Statement.isLegible, Bool.and_eq_true] at legible
    exact readsBack_guarded (test.readsBack legible.1) (Statement.readBack_all body legible.2)
  | result value => exact readsBack_result (value.readsBack legible)
  | function name params body =>
    simp only [Statement.isLegible, Bool.and_eq_true, List.all_eq_true] at legible
    exact readsBack_function (Statement.readBack_all body legible.2) legible.1.1 legible.1.2
  | loop test body =>
    simp only [Statement.isLegible, Bool.and_eq_true] at legible
    exact readsBack_loop (test.readsBack legible.1) (Statement.readBack_all body legible.2)
  | each binding iterable body =>
    simp only [Statement.isLegible, Bool.and_eq_true] at legible
    exact readsBack_each (iterable.readsBack legible.1.2) (Statement.readBack_all body legible.2)
      legible.1.1
  | ensured body finalizer =>
    simp only [Statement.isLegible, Bool.and_eq_true] at legible
    exact readsBack_ensured (Statement.readBack_all body legible.1)
      (Statement.readBack_all finalizer legible.2)
  | verbatim code => cases legible
termination_by structural s

theorem Statement.readBack_all (ss : List Statement) (legible : Statement.areLegible ss = true) :
    ∀ s ∈ ss, s.ReadsBack := by
  cases ss with
  | nil => nofun
  | cons s rest =>
    simp only [Statement.areLegible, Bool.and_eq_true] at legible
    exact List.forall_mem_cons.2 ⟨s.readsBack legible.1, Statement.readBack_all rest legible.2⟩
termination_by structural ss

end

/-- The whole text of a legible expression is read as that expression. -/
theorem readExpression_print {e : Expression} (legible : e.isLegible = true) (depth : Nat) :
    ∀ᶠ fuel in atTop, readExpression fuel depth (e.print depth).toList = some (e, []) := by
  have read := (e.readsBack legible).whole depth [] nofun
  rwa [List.append_nil] at read

/-- Legible expressions that have the same text at one depth are the same tree. -/
theorem print_eq_iff {e f : Expression} (legible_e : e.isLegible = true)
    (legible_f : f.isLegible = true) (depth : Nat) : e.print depth = f.print depth ↔ e = f := by
  refine ⟨fun same => ?_, fun same => same ▸ rfl⟩
  -- the reader sees nothing but the text
  obtain ⟨fuel, read_e, read_f⟩ :=
    ((readExpression_print legible_e depth).and (readExpression_print legible_f depth)).exists
  rw [same, read_f] at read_e
  cases read_e
  rfl

/-- A call of an arrow function has another text than an arrow function that calls. -/
theorem print_call_arrow_ne :
    (Expression.call (.arrow [] (.identifier "f")) [.identifier "a"]).isLegible = true ∧
      (Expression.arrow [] (.call (.identifier "f") [.identifier "a"])).isLegible = true ∧
      (Expression.call (.arrow [] (.identifier "f")) [.identifier "a"]).print 0 ≠
        (Expression.arrow [] (.call (.identifier "f") [.identifier "a"])).print 0 := by
  have legible :
      (Expression.call (.arrow [] (.identifier "f")) [.identifier "a"]).isLegible = true ∧
        (Expression.arrow [] (.call (.identifier "f") [.identifier "a"])).isLegible = true := by
    decide
  refine ⟨legible.1, legible.2, fun same => ?_⟩
  cases (print_eq_iff legible.1 legible.2 0).1 same

/-- With an access behind it, a unary operation has the text of the operation on the access. -/
example : (Expression.member (.unary "!" (.identifier "a")) "b").print 0 =
    (Expression.unary "!" (.member (.identifier "a") "b")).print 0 := by decide

end ReactiveMarkup.Emission
