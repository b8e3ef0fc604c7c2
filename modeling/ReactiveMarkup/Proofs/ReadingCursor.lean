import Mathlib.Logic.Relation
import ReactiveMarkup.Proofs.MarkupParsing

/-!
# Cursors of a reading

Reading a source from left to right goes through cursors: what has been read, what is left, and the
stack of the elements that are open, whose start tag has been read and whose end tag has not. The
steps are said by the rules of the grammar (`Cursor.Advances`), and they are those that the reader
takes (`Cursor.Advances.next?`). So from a cursor there is at most one step, and a reading comes to
a halt at one cursor only (`Cursor.Halted.unique`).
-/

namespace ReactiveMarkup.Markup

open Script (Expression Statement)
open Relation (ReflTransGen TransGen)
open Reader

/-! ## Cursors -/

/-- Where the reading of a source stands. -/
structure Cursor where
  /-- The elements whose start tag has been read and whose end tag has not, innermost first. -/
  opened : List OpenElement
  read : Progress
  rest : List Char

namespace Cursor

/-- Nothing of a source has been read. -/
def start (source : List Char) : Cursor := ⟨[], .start, source⟩

/-- The end tag that may come next. -/
def endTag? (c : Cursor) : Option String := c.opened.head?.map OpenElement.endTag

/-- The state of a reader at a cursor. -/
def state (c : Cursor) : ReaderState := c.read.state c.rest

section

variable (scripts : ScriptReader)

/-- One step of reading, by the rules of the grammar. A start tag opens an element as soon as it has
been read as a whole, and only the end tag of the innermost open element closes it. -/
inductive Advances : Cursor → Cursor → Prop
  | script {opened : List OpenElement} {p : Progress} {code rest : List Char}
      {program : List Statement} {next : Nat} (first : IsFirst scriptEnd code)
      (accepted : scripts.program code p.nextId = some (program, next)) :
      Advances ⟨opened, p, scriptStart ++ (code ++ (scriptEnd ++ rest))⟩
        ⟨opened, (p.past (scriptStart ++ (code ++ scriptEnd))).scripted program next, rest⟩
  | interpolation {opened : List OpenElement} {p : Progress} {code rest : List Char}
      {value : Expression} {next : Nat} (balanced : Balanced .code code)
      (accepted : scripts.expression code p.nextId = some (value, next)) :
      Advances ⟨opened, p, '{' :: (code ++ '}' :: rest)⟩
        ⟨opened, (p.past ('{' :: (code ++ ['}']))).numbered next, rest⟩
  | text {opened : List OpenElement} {p : Progress} {run rest : List Char} (some : run ≠ [])
      (fits : ∀ c ∈ run, isTextChar c = true) (longest : Stops isTextChar rest) :
      Advances ⟨opened, p, run ++ rest⟩ ⟨opened, p.past run, rest⟩
  | enter {opened : List OpenElement} {p q : Progress} {tag rest : List Char} {name : String}
      {attributes : List Attribute} (opening : StartTag scripts p tag name attributes q) :
      Advances ⟨opened, p, tag ++ rest⟩ ⟨⟨name, p.offset⟩ :: opened, q, rest⟩
  | leave {element : OpenElement} {opened : List OpenElement} {p : Progress} {rest : List Char} :
      Advances ⟨element :: opened, p, element.endTag.toList ++ rest⟩
        ⟨opened, p.past element.endTag.toList, rest⟩

/-- The cursor that a part of the reader comes to, with the elements that are open then. -/
def reached? {α : Type} (opened : List OpenElement) :
    Except Failure (α × ReaderState) → Option Cursor
  | .ok (_, s) => some ⟨opened, ⟨s.offset, s.nextId, s.script⟩, s.rest⟩
  | .error _ => none

/-- The step behind the end tag of the innermost open element, if it follows. -/
def closed? (c : Cursor) : Option Cursor :=
  match c.opened with
  | [] => none
  | element :: outer =>
    (Text.stripLead? element.endTag.toList c.rest).map fun rest =>
      ⟨outer, c.read.past element.endTag.toList, rest⟩

/-- The step that the reader takes where no tag starts. -/
def plain? (c : Cursor) : Option Cursor :=
  match c.rest with
  | [] => none
  | d :: _ =>
    if d = '{' then reached? c.opened (readExpression scripts c.state)
    else if d = '<' then c.closed?
    else reached? c.opened (readText c.state)

/-- The step that the reader takes, if it takes one. -/
def next? (c : Cursor) : Option Cursor :=
  if scriptStart.isPrefixOf c.rest then reached? c.opened (readScript scripts c.state)
  else
    match tagName? c.rest with
    | some name =>
      reached? (⟨String.ofList name, c.read.offset⟩ :: c.opened)
        (readStartTag scripts (String.ofList name) c.state)
    | none => c.plain? scripts

end

variable {scripts : ScriptReader} {opened : List OpenElement} {p q : Progress}
  {text rest : List Char} {c c' c'' : Cursor}

theorem next?_script (isScript : scriptStart <+: c.rest) :
    c.next? scripts = reached? c.opened (readScript scripts c.state) :=
  if_pos (List.isPrefixOf_iff_prefix.2 isScript)

theorem next?_startTag {name : List Char} (noScript : ¬ scriptStart <+: c.rest)
    (found : tagName? c.rest = some name) :
    c.next? scripts =
      reached? (⟨String.ofList name, c.read.offset⟩ :: c.opened)
        (readStartTag scripts (String.ofList name) c.state) := by
  rw [next?, if_neg fun lead => noScript (List.isPrefixOf_iff_prefix.1 lead), found]

theorem next?_plain (noName : tagName? c.rest = none) : c.next? scripts = c.plain? scripts := by
  have noScript : ¬ scriptStart.isPrefixOf c.rest = true := by
    intro lead
    obtain ⟨rest, same⟩ := List.isPrefixOf_iff_prefix.1 lead
    rw [← same] at noName
    cases noName
  rw [next?, if_neg noScript, noName]

theorem next?_expression :
    next? scripts ⟨opened, p, '{' :: text⟩ =
      reached? opened (readExpression scripts (p.state ('{' :: text))) :=
  next?_plain (tagName?_of_ne (by decide) text)

theorem next?_text {d : Char} (isText : isTextChar d = true) :
    next? scripts ⟨opened, p, d :: text⟩ = reached? opened (readText (p.state (d :: text))) := by
  obtain ⟨noTag, noBrace⟩ : d ≠ '<' ∧ d ≠ '{' := by simpa [isTextChar] using isText
  rw [next?_plain (tagName?_of_ne noTag text), plain?]
  dsimp only
  rw [if_neg noBrace, if_neg noTag]
  rfl

theorem next?_closed (noName : tagName? ('<' :: text) = none) :
    next? scripts ⟨opened, p, '<' :: text⟩ = closed? ⟨opened, p, '<' :: text⟩ :=
  next?_plain noName

/-- The steps are those of the reader. -/
theorem Advances.next? (step : Advances scripts c c') : c.next? scripts = some c' := by
  cases step with
  | script first accepted =>
    rw [next?_script (List.prefix_append _ _), state, readScript_eq first accepted]
    rfl
  | interpolation balanced accepted =>
    rw [next?_expression, readExpression_eq balanced accepted]
    rfl
  | @text opened p run rest some fits longest =>
    obtain ⟨d, run, rfl⟩ := List.exists_cons_of_ne_nil some
    obtain ⟨fragment, -, read⟩ := readText_eq (p := p) fits longest
    rw [List.cons_append, next?_text (fits d List.mem_cons_self), ← List.cons_append, read]
    rfl
  | @enter opened p q tag rest name attributes opening =>
    obtain ⟨-, noScript, letters, rfl, found⟩ := opening.found rest
    rw [next?_startTag noScript found, state, readStartTag_eq opening rest]
    rfl
  | @leave element opened p rest =>
    have after : Text.stripLead? element.endTag.toList (element.endTag.toList ++ rest) =
        some rest := Text.stripLead?_eq_some_iff.2 rfl
    obtain ⟨tail, starts⟩ : ∃ tail, element.endTag.toList ++ rest = '<' :: '/' :: tail :=
      ⟨_, by rw [toList_endTag]; rfl⟩
    rw [starts] at after ⊢
    rw [next?_closed rfl, closed?]
    dsimp only
    rw [after]
    rfl

/-- From a cursor there is at most one step. -/
theorem Advances.unique (step : Advances scripts c c') (step' : Advances scripts c c'') :
    c' = c'' := Option.some.inj (step.next?.symm.trans step'.next?)

/-- A cursor of a source: what has been read of it and what is left make up the source, and each
open element has its start tag at its offset. -/
structure IsIn (source : List Char) (c : Cursor) : Prop where
  split : ∃ before, source = before ++ c.rest ∧ c.read.offset = Text.byteSize before
  starts : ∀ element ∈ c.opened, ∃ before rest,
    source = before ++ '<' :: (element.name.toList ++ rest) ∧
      element.offset = Text.byteSize before

theorem isIn_start (source : List Char) : (start source).IsIn source :=
  ⟨⟨[], rfl, rfl⟩, List.forall_mem_nil _⟩

theorem Advances.isIn {source : List Char} (step : Advances scripts c c') (h : c.IsIn source) :
    c'.IsIn source := by
  obtain ⟨⟨before, whole, offset⟩, starts⟩ := h
  cases step with
  | @script _ _ code _ _ _ _ _ =>
    exact ⟨⟨before ++ (scriptStart ++ (code ++ scriptEnd)), by simp [whole], by simp [← offset]⟩,
      starts⟩
  | @interpolation _ _ code _ _ _ _ _ =>
    exact ⟨⟨before ++ '{' :: (code ++ ['}']), by simp [whole], by simp [← offset]⟩, starts⟩
  | @text _ _ run _ _ _ _ =>
    exact ⟨⟨before ++ run, by simp [whole], by simp [← offset]⟩, starts⟩
  | @enter opened p q tag rest name attributes opening =>
    refine ⟨⟨before ++ tag, by simp [whole], ?_⟩, List.forall_mem_cons.2 ⟨?_, starts⟩⟩
    · simp [opening.offset, ← offset]
    · obtain ⟨-, -, -, -⟩ := opening
      exact ⟨before, _, by simpa using whole, offset⟩
  | @leave element _ _ _ =>
    exact ⟨⟨before ++ element.endTag.toList, by simp [whole], by simp [← offset]⟩,
      (List.forall_mem_cons.1 starts).2⟩

/-- Whatever a reading comes to is a cursor of the source. -/
theorem isIn_of_reached {source : List Char} (h : c.IsIn source)
    (run : ReflTransGen (Advances scripts) c c') : c'.IsIn source := by
  induction run with
  | refl => exact h
  | tail _ step ih => exact step.isIn ih

/-- A step takes something from the front of what is left. -/
theorem Advances.shorter (step : Advances scripts c c') : c'.rest.length < c.rest.length := by
  cases step with
  | script => simp [scriptStart_eq]; omega
  | interpolation => simp; omega
  | text some => simpa using List.length_pos_iff.2 some
  | enter opening =>
    obtain ⟨-, -, -, -⟩ := opening
    simp
    omega
  | leave => simp [toList_endTag]; omega

theorem shorter_of_reached (run : TransGen (Advances scripts) c c') :
    c'.rest.length < c.rest.length := by
  induction run with
  | single step => exact step.shorter
  | tail _ step ih => exact Nat.lt_trans step.shorter ih

/-- Whether a reading can go no further. -/
def Halted (scripts : ScriptReader) (c : Cursor) : Prop := ∀ c', ¬ Advances scripts c c'

theorem halted_of_next? (none : c.next? scripts = none) : Halted scripts c := by
  intro c' step
  rw [step.next?] at none
  cases none

/-- A reading comes to a halt at one cursor only. -/
theorem Halted.unique (run : ReflTransGen (Advances scripts) c c') (halted : Halted scripts c')
    (run' : ReflTransGen (Advances scripts) c c'') (halted' : Halted scripts c'') : c' = c'' := by
  induction run using ReflTransGen.head_induction_on with
  | refl =>
    rcases run'.cases_head with same | ⟨c₁, step, -⟩
    · exact same
    · exact absurd step (halted c₁)
  | head step _ ih =>
    rcases run'.cases_head with rfl | ⟨c₁, step', run'⟩
    · exact absurd step (halted' _)
    · obtain rfl := step.unique step'
      exact ih run'

end Cursor

end ReactiveMarkup.Markup
