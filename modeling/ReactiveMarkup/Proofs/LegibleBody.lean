import ReactiveMarkup.Proofs.LegibleExpression
import ReactiveMarkup.Proofs.ReindentedLines

/-!
# Generated templates, functions and bodies read back

The kinds of expressions that are read with parts of their own: templates with their literals and
slots, and objects, whose methods have parameters and statements. A template shows where its
literals end because none is empty and none follows another one. A body shows where it ends because
its last brace stands two characters left of its statements.
-/

namespace ReactiveMarkup.Emission

open Filter (atTop)
open Script (isSpelled tailsText)
open Text (stripLead? isIdentifierPart indentation commaSeparated)

/-! ## Templates -/

/-- Whether some parts of a template, up to its end, are read as those parts. -/
def TemplatePart.ReadBack (parts : List TemplatePart) : Prop :=
  ∀ depth rest, ∀ᶠ fuel in atTop,
    readParts fuel depth ((TemplatePart.printAll depth parts).toList ++ '`' :: rest) =
      some (parts, rest)

theorem readBack_noParts : TemplatePart.ReadBack [] := by
  intro depth rest
  refine eventually_of_succ (.of_forall fun fuel => ?_)
  rw [readParts]
  rfl

section

variable {parts : List TemplatePart}

/-- What comes behind a literal: the end of the template, or a slot. -/
theorem behindLiteral (apart : ∀ text others, parts ≠ .literal text :: others) (depth : Nat)
    (rest : List Char) :
    (∃ more, (TemplatePart.printAll depth parts).toList ++ '`' :: rest = '`' :: more) ∨
      ∃ more, (TemplatePart.printAll depth parts).toList ++ '`' :: rest = '$' :: '{' :: more := by
  cases parts with
  | nil => exact .inl ⟨rest, rfl⟩
  | cons part others =>
    cases part with
    | literal text => exact absurd rfl (apart text others)
    | slot e =>
      refine .inr ⟨(e.print depth).toList ++
        '}' :: ((TemplatePart.printAll depth others).toList ++ '`' :: rest), ?_⟩
      simp [TemplatePart.printAll]

theorem readBack_literal {text : String} (visible : text ≠ "")
    (apart : ∀ text others, parts ≠ .literal text :: others) (reads : TemplatePart.ReadBack parts) :
    TemplatePart.ReadBack (.literal text :: parts) := by
  intro depth rest
  have ends := behindLiteral apart depth rest
  have visible' : text.toList ≠ [] := fun empty => visible (String.toList_eq_nil_iff.1 empty)
  have chars : (TemplatePart.printAll depth (.literal text :: parts)).toList ++ '`' :: rest =
      templateText text.toList ++ ((TemplatePart.printAll depth parts).toList ++ '`' :: rest) := by
    simp [TemplatePart.printAll]
  -- an empty literal would be taken for what follows it
  obtain ⟨noEnd, noSlot⟩ := templateText_append_opens ends visible'
  refine eventually_of_succ ?_
  filter_upwards [reads depth rest] with fuel others
  rw [chars, readParts, noEnd, noSlot, readLiteral_append ends]
  simp [others]

theorem readBack_slot {e : Expression} (reads_e : e.ReadsBack)
    (reads : TemplatePart.ReadBack parts) : TemplatePart.ReadBack (.slot e :: parts) := by
  intro depth rest
  have inner := reads_e.whole depth
    ('}' :: ((TemplatePart.printAll depth parts).toList ++ '`' :: rest))
    (endsWhole_cons (by decide) _)
  have chars : (TemplatePart.printAll depth (.slot e :: parts)).toList ++ '`' :: rest =
      '$' :: '{' :: (e.chars depth ++
        '}' :: ((TemplatePart.printAll depth parts).toList ++ '`' :: rest)) := by
    simp [TemplatePart.printAll, Expression.chars]
  refine eventually_of_succ ?_
  filter_upwards [inner, reads depth rest] with fuel inner others
  rw [chars, readParts]
  simp [stripLead?, inner, others]

theorem readsBack_template (reads : TemplatePart.ReadBack parts) :
    (Expression.template parts).ReadsBack := by
  refine readsBack_of_leadsOn rfl (fun depth => ?_) fun depth rest _ => ?_
  · rw [chars_template]
    exact opens_mark (by decide) _
  · rw [chars_template]
    refine leadsOn_of_head (by decide) (eventually_of_succ ?_)
    filter_upwards [reads depth rest] with fuel inner
    rw [List.append_assoc, List.singleton_append, readHead]
    simp [inner]

end

/-! ## Parameters -/

/-- The characters of a parameter. -/
def Parameter.chars (depth : Nat) : Parameter → List Char
  | ⟨name, none⟩ => name.toList
  | ⟨name, some fallback⟩ => name.toList ++ ' ' :: '=' :: ' ' :: fallback.chars depth

/-- Whether the text of a parameter is read as that parameter. -/
structure Parameter.ReadsBack (p : Parameter) : Prop where
  spelled : isSpelled p.name = true
  fallback : ∀ e, p.fallback = some e → e.ReadsBack

theorem printAll_parameters (depth : Nat) (p : Parameter) (ps : List Parameter) :
    Parameter.printAll depth (p :: ps) =
      String.ofList (p.chars depth) :: Parameter.printAll depth ps := by
  obtain ⟨name, _ | fallback⟩ := p
  · simp [Parameter.printAll, Parameter.chars]
  · have text : name ++ " = " ++ fallback.print depth =
        String.ofList (Parameter.chars depth ⟨name, some fallback⟩) := by
      apply String.toList_inj.1
      simp [Parameter.chars, Expression.chars]
    rw [Parameter.printAll, text]

theorem readParameter_append {p : Parameter} (reads : p.ReadsBack) (depth : Nat) {rest : List Char}
    (ends : EndsWhole rest) :
    ∀ᶠ fuel in atTop, readParameter fuel depth (p.chars depth ++ rest) = some (p, rest) := by
  obtain ⟨name, fallback⟩ := p
  have spelled : isSpelled name = true := reads.spelled
  refine eventually_of_succ ?_
  cases fallback with
  | none =>
    -- no default value: what may follow a parameter starts with no space
    have noBlank : stripLead? [' ', '=', ' '] rest = none := by
      cases rest with
      | nil => rfl
      | cons c rest =>
        have closes := ends c rfl
        exact stripLead?_of_ne (fun blank => absurd (blank ▸ closes) (by decide)) _ _
    refine .of_forall fun fuel => ?_
    rw [Parameter.chars, readParameter, readName?_append spelled ends.operand.stops]
    simp [noBlank]
  | some fallback =>
    filter_upwards [(reads.fallback fallback rfl).whole depth rest ends] with fuel inner
    rw [Parameter.chars, List.append_assoc, List.cons_append, readParameter,
      readName?_append spelled (stops_cons (by decide : isIdentifierPart ' ' = false) _)]
    simp [stripLead?, inner]

theorem head?_parameter_ne {p : Parameter} (reads : p.ReadsBack) (depth : Nat) (rest : List Char)
    {d : Char} (other : isIdentifierPart d = false) : (p.chars depth ++ rest).head? ≠ some d := by
  obtain ⟨name, _ | fallback⟩ := p
  · exact head?_name_ne reads.spelled rest other
  · rw [Parameter.chars, List.append_assoc]
    exact head?_name_ne reads.spelled _ other

section

variable {params : List Parameter} (reads : ∀ p ∈ params, p.ReadsBack)

include reads

theorem readParametersBehind_tails (depth : Nat) (rest : List Char) :
    ∀ᶠ fuel in atTop, readParametersBehind fuel depth
      (tailsText (Parameter.printAll depth params) ++ ')' :: rest) = some (params, rest) := by
  induction params with
  | nil => exact eventually_of_succ (.of_forall fun _ => rfl)
  | cons p params ih =>
    have text : tailsText (Parameter.printAll depth (p :: params)) ++ ')' :: rest =
        [',', ' '] ++ (p.chars depth ++
          (tailsText (Parameter.printAll depth params) ++ ')' :: rest)) := by
      simp [printAll_parameters, tailsText]
    refine eventually_of_succ ?_
    filter_upwards [readParameter_append (reads p List.mem_cons_self) depth
        (endsWhole_tails (Parameter.printAll depth params) (by decide : ')' ∈ closers) rest),
      ih fun p mem => reads p (List.mem_cons_of_mem _ mem)] with fuel first others
    rw [readParametersBehind, text, if_neg (by simp), stripLead?_append]
    simp [first, others]

theorem readParameters_list (depth : Nat) (rest : List Char) :
    ∀ᶠ fuel in atTop, readParameters fuel depth
      ((commaSeparated (Parameter.printAll depth params)).toList ++ ')' :: rest) =
        some (params, rest) := by
  refine eventually_of_succ ?_
  cases params with
  | nil => exact .of_forall fun _ => rfl
  | cons p params =>
    have reads_p := reads p List.mem_cons_self
    filter_upwards [readParameter_append reads_p depth
        (endsWhole_tails (Parameter.printAll depth params) (by decide : ')' ∈ closers) rest),
      readParametersBehind_tails (fun p mem => reads p (List.mem_cons_of_mem _ mem)) depth rest]
      with fuel first others
    rw [printAll_parameters, Script.toList_commaSeparated, String.toList_ofList, List.append_assoc,
      readParameters, if_neg (head?_parameter_ne reads_p depth _ (by decide))]
    simp [first, others]

end

/-! ## Bodies -/

theorem toList_indentation_succ (depth : Nat) :
    (indentation (depth + 1)).toList = (indentation depth).toList ++ [' ', ' '] := by
  rw [toList_indentation, toList_indentation, Nat.mul_succ, List.replicate_add]
  rfl

/-- The lines of a body and its last brace. -/
def bodyChars (depth : Nat) (body : List Statement) : List Char :=
  (Statement.printAll (depth + 1) body).toList ++ ((indentation depth).toList ++ ['}'])

/-- Whether the text of a statement is read as that statement. -/
def Statement.ReadsBack (s : Statement) : Prop :=
  ∀ depth, ∃ line, (s.print depth).toList = (indentation depth).toList ++ line ∧
    ∀ rest, ∀ᶠ fuel in atTop, readStatement fuel depth (line ++ rest) = some (s, rest)

theorem readBody_append {body : List Statement} (reads : ∀ s ∈ body, s.ReadsBack) (depth : Nat)
    (rest : List Char) :
    ∀ᶠ fuel in atTop, readBody fuel depth (bodyChars depth body ++ rest) = some (body, rest) := by
  induction body with
  | nil =>
    have text : bodyChars depth [] ++ rest = (indentation depth).toList ++ '}' :: rest := by
      simp [bodyChars, Statement.printAll]
    refine eventually_of_succ (.of_forall fun fuel => ?_)
    rw [readBody, text, stripLead?_append]
    rfl
  | cons s body ih =>
    -- two more blanks than in front of the last brace: another statement
    obtain ⟨line, chars, first⟩ := reads s List.mem_cons_self (depth + 1)
    have text : bodyChars depth (s :: body) ++ rest =
        (indentation depth).toList ++ ' ' :: ' ' :: (line ++ (bodyChars depth body ++ rest)) := by
      simp [bodyChars, Statement.printAll, chars, toList_indentation_succ]
    refine eventually_of_succ ?_
    filter_upwards [first (bodyChars depth body ++ rest),
      ih fun s mem => reads s (List.mem_cons_of_mem _ mem)] with fuel first others
    rw [readBody, text, stripLead?_append]
    simp [stripLead?, first, others]

/-! ## Objects -/

/-- Whether the text of a method is read as that method. -/
structure Method.ReadsBack (m : Method) : Prop where
  spelled : isSpelled m.name = true
  params : ∀ p ∈ m.params, p.ReadsBack
  body : ∀ s ∈ m.body, s.ReadsBack

/-- The lines of some methods and the brace that closes their object. -/
def methodsChars (depth : Nat) (methods : List Method) : List Char :=
  (Method.printAll (depth + 1) methods).toList ++ ((indentation depth).toList ++ ['}'])

theorem methodsChars_cons (depth : Nat) (m : Method) (methods : List Method) (rest : List Char) :
    methodsChars depth (m :: methods) ++ rest =
      (indentation depth).toList ++ ' ' :: ' ' :: (m.name.toList ++ '(' ::
        ((commaSeparated (Parameter.printAll (depth + 1) m.params)).toList ++ ')' ::
          ' ' :: '{' :: '\n' :: (bodyChars (depth + 1) m.body ++
            ',' :: '\n' :: (methodsChars depth methods ++ rest)))) := by
  obtain ⟨name, params, body⟩ := m
  simp [methodsChars, Method.printAll, Method.print, bodyChars, toList_indentation_succ]

theorem readMethods_append {methods : List Method} (reads : ∀ m ∈ methods, m.ReadsBack)
    (depth : Nat) (rest : List Char) :
    ∀ᶠ fuel in atTop, readMethods fuel depth (methodsChars depth methods ++ rest) =
      some (methods, rest) := by
  induction methods with
  | nil =>
    have text : methodsChars depth [] ++ rest = (indentation depth).toList ++ '}' :: rest := by
      simp [methodsChars, Method.printAll]
    refine eventually_of_succ (.of_forall fun fuel => ?_)
    rw [readMethods, text, stripLead?_append]
    rfl
  | cons m methods ih =>
    have others := ih fun m mem => reads m (List.mem_cons_of_mem _ mem)
    obtain ⟨spelled, reads_params, reads_body⟩ := reads m List.mem_cons_self
    obtain ⟨name, params, body⟩ := m
    have first := fun rest =>
      readName?_append spelled (stops_cons (by decide : isIdentifierPart '(' = false) rest)
    have signature := readParameters_list reads_params (depth + 1) (' ' :: '{' :: '\n' ::
      (bodyChars (depth + 1) body ++ ',' :: '\n' :: (methodsChars depth methods ++ rest)))
    have inner := readBody_append reads_body (depth + 1)
      (',' :: '\n' :: (methodsChars depth methods ++ rest))
    refine eventually_of_succ ?_
    -- enough fuel for the parameters, the body and the other methods is enough for all
    filter_upwards [signature, inner, others] with fuel signature inner others
    rw [methodsChars_cons, readMethods, stripLead?_append]
    simp [stripLead?, first, signature, inner, others]

theorem readsBack_object {methods : List Method} (reads : ∀ m ∈ methods, m.ReadsBack) :
    (Expression.object methods).ReadsBack := by
  cases methods with
  | nil =>
    have chars : ∀ depth, (Expression.object []).chars depth = ['{', '}'] := by
      simp [Expression.chars, Expression.print]
    refine readsBack_of_leadsOn rfl (fun depth => ?_) fun depth rest _ => ?_
    · rw [chars]
      exact opens_mark (by decide) _
    · rw [chars]
      refine leadsOn_of_head (by decide) (eventually_of_succ (.of_forall fun fuel => ?_))
      rw [readHead]
      rfl
  | cons m methods =>
    have chars : ∀ depth, (Expression.object (m :: methods)).chars depth =
        '{' :: '\n' :: methodsChars depth (m :: methods) := by
      simp [Expression.chars, Expression.print, methodsChars, Method.printAll]
    refine readsBack_of_leadsOn rfl (fun depth => ?_) fun depth rest _ => ?_
    · rw [chars]
      exact opens_mark (by decide) _
    · rw [chars]
      refine leadsOn_of_head (by decide) (eventually_of_succ ?_)
      filter_upwards [readMethods_append reads depth rest] with fuel inner
      rw [List.cons_append, readHead]
      simp [stripLead?, inner]

end ReactiveMarkup.Emission
