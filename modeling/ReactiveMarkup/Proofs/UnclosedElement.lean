import ReactiveMarkup.Proofs.FailureLocation
import ReactiveMarkup.Proofs.ReadingCursor

/-!
# Elements that are never closed

A reading that fails comes to a halt at a cursor (`HaltsAt`), and the stack of the cursor holds the
elements that are open at the failure. On its way up through the calls of the reader, the failure is
noted for those of them whose end tag is missing, from the innermost one outward (`FailsFrom`). A
failure inside a start tag misses no end tag, and so it is noted for no element (`IsPlain`). So a
diagnostic has one hint for each unclosed element, behind the standing hint of its code, and no
others (`hintsUnclosed_of_failed`).
-/

namespace ReactiveMarkup.Markup

open Relation (ReflTransGen TransGen)
open Reader

/-! ## Failures of the parts -/

/-- Whether a failure has been noted for no element and misses no end tag. -/
structure IsPlain (failure : Failure) : Prop where
  unclosed : failure.unclosed = []
  noEndTag : ∀ element : OpenElement, failure.fault ≠ .expected element.endTag

/-- Whether a reader fails only plainly. -/
def FailsPlainly {α : Type} (reader : Reader α) : Prop :=
  ∀ s, Meets reader s (fun _ _ => True) IsPlain

section

variable {α β : Type} {reader : Reader α} {next : α → Reader β}

theorem FailsPlainly.bind (h : FailsPlainly reader) (further : ∀ a, FailsPlainly (next a)) :
    FailsPlainly (reader >>= next) :=
  fun s => (h s).bind fun a s' _ => further a s'

theorem failsPlainly_pure (a : α) : FailsPlainly (pure a : Reader α) :=
  fun _ => meets_of_ok rfl trivial

theorem failsPlainly_get : FailsPlainly get := fun _ => meets_of_ok rfl trivial

theorem failsPlainly_takeWhile (condition : Char → Bool) : FailsPlainly (takeWhile condition) :=
  fun _ => meets_of_ok rfl trivial

/-- An end tag starts with an angle bracket. -/
theorem isPlain_expected {literal : String} (other : literal.toList.head? ≠ some '<')
    (offset : Nat) : IsPlain ⟨.expected literal, offset, []⟩ := by
  refine ⟨rfl, fun element same => other ?_⟩
  obtain rfl := Fault.expected.inj same
  rw [toList_endTag]
  rfl

theorem failsPlainly_eat {literal : String} (other : literal.toList.head? ≠ some '<') :
    FailsPlainly (eat literal) := by
  intro s
  show Meets _ (Progress.state ⟨s.offset, s.nextId, s.script⟩ s.rest) _ _
  exact meets_eat (fun _ _ => trivial) fun _ => isPlain_expected other _

theorem failsPlainly_readInterpolated (scripts : ScriptReader) :
    FailsPlainly (readInterpolated scripts) := by
  intro s
  show Meets _ (Progress.state ⟨s.offset, s.nextId, s.script⟩ s.rest) _ _
  refine meets_readInterpolated (fun _ _ _ _ _ _ _ => trivial) (fun _ _ _ _ _ => ?_) ?_
  · exact ⟨rfl, fun _ same => by cases same⟩
  · exact isPlain_expected (by decide) _

theorem failsPlainly_readAttribute (scripts : ScriptReader) :
    FailsPlainly (readAttribute scripts) := by
  refine failsPlainly_get.bind fun s => (failsPlainly_takeWhile _).bind fun name => ?_
  split
  · exact fun _ => meets_of_error rfl (isPlain_expected (by decide) _)
  · exact (failsPlainly_eat (by decide)).bind fun _ => (failsPlainly_eat (by decide)).bind fun _ =>
      (failsPlainly_readInterpolated scripts).bind fun value =>
        (failsPlainly_eat (by decide)).bind fun _ => failsPlainly_pure _

theorem failsPlainly_readAttributes (scripts : ScriptReader) (fuel : Nat) :
    FailsPlainly (readAttributes scripts fuel) := by
  induction fuel with
  | zero => exact failsPlainly_pure []
  | succ fuel ih =>
    intro s
    refine .of_eq ?_ (readAttributes_succ (p := ⟨s.offset, s.nextId, s.script⟩) fuel s.rest)
    by_cases ends : s.rest.dropWhile Text.isBlank = [] ∨
        ">".toList <+: s.rest.dropWhile Text.isBlank
    · exact meets_of_ok (moreAttributes_end fuel ends) trivial
    · refine .of_eq ?_ (moreAttributes_step fuel ends)
      exact ((failsPlainly_readAttribute scripts).bind fun first =>
        ih.bind fun others => failsPlainly_pure _) _

end

section

variable {scripts : ScriptReader} {first p : Progress} {outer opened : List OpenElement}
  {source text name : List Char}

/-- A reading is stuck at what it started with or behind it. -/
theorem Stuck.offset_le {fault : Fault} {offset : Nat}
    (stuck : Stuck scripts first outer source opened fault offset) : first.offset ≤ offset := by
  cases stuck with
  | missing => exact Nat.le_add_right _ _
  | stray _ reached => exact reached.offset ▸ Nat.le_add_right _ _
  | program reached | interpolation reached =>
    rw [Progress.offset_past, reached.offset, Nat.add_assoc]
    exact Nat.le_add_right _ _
  | entry reached =>
    rw [Progress.offset_past, reached.offset, Nat.add_assoc]
    exact Nat.le_add_right _ _

/-- A start tag is read, or something is wrong in it. -/
theorem meets_readStartTag (found : tagName? text = some name) (noScript : ¬ scriptStart <+: text) :
    Meets (readStartTag scripts (String.ofList name)) (p.state text)
      (fun attributes s => ∃ tag rest q, text = tag ++ rest ∧ s = q.state rest ∧
        StartTag scripts p tag (String.ofList name) attributes q)
      (fun failure => IsPlain failure ∧ p.offset ≤ failure.offset) := by
  have outcome := readStartTag_outcome (.start : Reached scripts p [] [] [] p) rfl found noScript
  have plain : Meets (readStartTag scripts (String.ofList name)) (p.state text) (fun _ _ => True)
      IsPlain := by
    obtain ⟨text, rfl, named, longest⟩ := tagName?_eq_some_iff.1 found
    refine meets_bind.2 (meets_of_ok (eat_tagStart name text) ?_)
    exact (failsPlainly_get.bind fun s => (failsPlainly_readAttributes scripts _).bind fun _ =>
      (failsPlainly_eat (by decide)).bind fun _ => failsPlainly_pure _) _
  cases read : readStartTag scripts (String.ofList name) (p.state text) with
  | ok result =>
    obtain ⟨attributes, s⟩ := result
    obtain ⟨tag, rest, q, whole, state, -, opening⟩ := outcome.of_ok read
    exact meets_of_ok read ⟨tag, rest, q, whole, state, opening⟩
  | error failure =>
    obtain ⟨inner, stuck, -⟩ := outcome.of_error read
    exact meets_of_error read ⟨plain.of_error read, stuck.offset_le⟩

end

/-! ## Where a failing reading halts -/

section

variable {scripts : ScriptReader} {c c' : Cursor} {failure : Failure}

/-- Whether a reading from a cursor comes to a halt where a failure arises: at or before its place,
and behind a tag that may start there no end tag is missing. -/
structure HaltsAt (scripts : ScriptReader) (c stop : Cursor) (fault : Fault) (offset : Nat) :
    Prop where
  run : ReflTransGen (Cursor.Advances scripts) c stop
  halted : stop.Halted scripts
  behind : stop.read.offset ≤ offset
  inTag : (tagName? stop.rest).isSome → ¬ scriptStart <+: stop.rest →
    ∀ element : OpenElement, fault ≠ .expected element.endTag

/-- A failure of a reading from a cursor: it comes to a halt with some further elements open, and
the failure has been noted for those of them whose end tag is missing. -/
def FailsFrom (scripts : ScriptReader) (c : Cursor) (failure : Failure) : Prop :=
  ∃ stop inner, HaltsAt scripts c stop failure.fault failure.offset ∧
    stop.opened = inner ++ c.opened ∧
    failure.unclosed = inner.filter fun element => failure.fault = .expected element.endTag

theorem failsFrom_of_halted (halted : c.Halted scripts) (unnoted : failure.unclosed = [])
    (behind : c.read.offset ≤ failure.offset)
    (inTag : (tagName? c.rest).isSome → ¬ scriptStart <+: c.rest →
      ∀ element : OpenElement, failure.fault ≠ .expected element.endTag) :
    FailsFrom scripts c failure :=
  ⟨c, [], ⟨.refl, halted, behind, inTag⟩, rfl, unnoted⟩

/-- At the end of a source the end tag of the innermost open element is missing. -/
theorem failsFrom_end {element : OpenElement} {opened : List OpenElement} {p : Progress} :
    FailsFrom scripts ⟨element :: opened, p, []⟩ ⟨.expected element.endTag, p.offset, []⟩ := by
  have halted : Cursor.Halted scripts ⟨element :: opened, p, []⟩ :=
    fun _ step => absurd step.shorter (Nat.not_lt_zero _)
  exact failsFrom_of_halted halted rfl (Nat.le_refl _) fun tag => by cases tag

theorem FailsFrom.before (fails : FailsFrom scripts c' failure)
    (run : ReflTransGen (Cursor.Advances scripts) c c') (same : c'.opened = c.opened) :
    FailsFrom scripts c failure := by
  obtain ⟨stop, inner, halts, opened, unclosed⟩ := fails
  exact ⟨stop, inner, ⟨run.trans halts.run, halts.halted, halts.behind, halts.inTag⟩,
    same ▸ opened, unclosed⟩

/-- A failure inside an element that has been entered is noted for it. -/
theorem FailsFrom.noted {element : OpenElement} (fails : FailsFrom scripts c' failure)
    (run : ReflTransGen (Cursor.Advances scripts) c c')
    (entered : c'.opened = element :: c.opened) :
    FailsFrom scripts c (Reader.noted element failure) := by
  obtain ⟨stop, inner, halts, opened, unclosed⟩ := fails
  refine ⟨stop, inner ++ [element], ?_, by simp [opened, entered], ?_⟩
  · rw [fault_noted, offset_noted]
    exact ⟨run.trans halts.run, halts.halted, halts.behind, halts.inTag⟩
  · rw [fault_noted, List.filter_append, ← unclosed, unclosed_noted]

/-- The reading goes on from a cursor to a state with the same elements open. -/
def GoesOn (scripts : ScriptReader) (c : Cursor) (s : ReaderState) : Prop :=
  ∃ c', s = c'.state ∧ c'.opened = c.opened ∧ TransGen (Cursor.Advances scripts) c c'

/-- An item without items inside is one step. -/
theorem meets_item {α : Type} {reader : Reader α}
    (steps : c.next? scripts = Cursor.reached? c.opened (reader c.state))
    (noTag : tagName? c.rest = none ∨ scriptStart <+: c.rest)
    (read : Meets reader c.state
      (fun _ s => ∃ c', s = c'.state ∧ c'.opened = c.opened ∧ c.Advances scripts c')
      (fun failure => failure.unclosed = [] ∧ c.read.offset ≤ failure.offset)) :
    Meets reader c.state (fun _ s => GoesOn scripts c s) (FailsFrom scripts c) := by
  cases result : reader c.state with
  | ok taken =>
    obtain ⟨a, s⟩ := taken
    obtain ⟨c', rfl, same, step⟩ := read.of_ok result
    exact meets_of_ok result ⟨c', rfl, same, .single step⟩
  | error failure =>
    obtain ⟨unnoted, behind⟩ := read.of_error result
    have halted : c.Halted scripts := Cursor.halted_of_next? (by rw [steps, result]; rfl)
    refine meets_of_error result (failsFrom_of_halted halted unnoted behind fun tag noScript => ?_)
    rcases noTag with none | isScript
    · rw [none] at tag
      cases tag
    · exact absurd isScript noScript

end

section

variable {scripts : ScriptReader} {opened : List OpenElement} {p : Progress} {text : List Char}

theorem readScript_run (isScript : scriptStart <+: text) :
    Meets (readScript scripts) (p.state text) (fun _ s => GoesOn scripts ⟨opened, p, text⟩ s)
      (FailsFrom scripts ⟨opened, p, text⟩) := by
  refine meets_item (c := ⟨opened, p, text⟩) (Cursor.next?_script isScript) (.inr isScript) ?_
  obtain ⟨text, rfl⟩ := isScript
  refine meets_readScript ?accepted ?rejected ?unended
  case accepted =>
    rintro code rest program next rfl isFirst read
    exact ⟨⟨opened, _, rest⟩, rfl, rfl, .script isFirst read⟩
  case rejected => exact fun _ _ _ _ _ => ⟨rfl, Nat.le_add_right _ _⟩
  case unended => exact ⟨rfl, Nat.le_add_right _ _⟩

theorem readExpression_run :
    Meets (readExpression scripts) (p.state ('{' :: text))
      (fun _ s => GoesOn scripts ⟨opened, p, '{' :: text⟩ s)
      (FailsFrom scripts ⟨opened, p, '{' :: text⟩) := by
  refine meets_item (c := ⟨opened, p, '{' :: text⟩) Cursor.next?_expression
    (.inl (tagName?_of_ne (by decide) text)) ?_
  refine meets_readExpression ?accepted ?rejected ?unbalanced
  case accepted =>
    rintro code rest value next rfl balanced read
    exact ⟨⟨opened, _, rest⟩, rfl, rfl, .interpolation balanced read⟩
  case rejected => exact fun _ _ _ _ _ => ⟨rfl, Nat.le_add_right _ _⟩
  case unbalanced => exact ⟨rfl, Nat.le_add_right _ _⟩

theorem readText_run {d : Char} (isText : isTextChar d = true) (bad : Failure → Prop) :
    Meets readText (p.state (d :: text)) (fun _ s => GoesOn scripts ⟨opened, p, d :: text⟩ s)
      bad := by
  obtain ⟨run, rest, rfl, fits, longest⟩ := exists_longest isTextChar text
  have fits : ∀ d' ∈ d :: run, isTextChar d' = true := List.forall_mem_cons.2 ⟨isText, fits⟩
  obtain ⟨fragment, -, read⟩ := readText_eq (p := p) fits longest
  exact meets_of_ok read ⟨⟨opened, _, rest⟩, rfl, rfl,
    .single (.text (List.cons_ne_nil d run) fits longest)⟩

/-- Where nothing of markup starts and the end tag at hand does not follow, the reading halts. -/
theorem failUnreadable_run (noName : tagName? ('<' :: text) = none)
    (goesOn : ¬ Ends (opened.head?.map OpenElement.endTag) ('<' :: text))
    (ok : Option Fragment → ReaderState → Prop) :
    Meets (failUnreadable (opened.head?.map OpenElement.endTag)) (p.state ('<' :: text)) ok
      (FailsFrom scripts ⟨opened, p, '<' :: text⟩) := by
  -- neither a start tag nor the end tag of the innermost open element can be taken here
  have halted : Cursor.Halted scripts ⟨opened, p, '<' :: text⟩ := by
    refine Cursor.halted_of_next? ((Cursor.next?_closed noName).trans ?_)
    cases opened with
    | nil => rfl
    | cons element outer =>
      have absent : ¬ element.endTag.toList <+: '<' :: text :=
        fun lead => goesOn (.inr ⟨element.endTag, rfl, lead⟩)
      rw [Cursor.closed?]
      dsimp only
      rw [stripLead?_eq_none_iff.2 absent]
      rfl
  have noTag : ¬ (tagName? ('<' :: text)).isSome := by simp [noName]
  cases opened with
  | nil =>
    exact meets_of_error rfl
      (failsFrom_of_halted halted rfl (Nat.le_refl _) fun tag => absurd tag noTag)
  | cons element outer =>
    exact meets_of_error rfl
      (failsFrom_of_halted halted rfl (Nat.le_refl _) fun tag => absurd tag noTag)

end

section

variable (scripts : ScriptReader) (fuel : Nat)

/-- What a run of items does with some fuel. -/
def FragmentsRun : Prop :=
  ∀ c : Cursor, 3 * c.rest.length + 3 ≤ fuel →
    Meets (readFragments scripts fuel c.endTag?) c.state
      (fun _ s => ∃ c', s = c'.state ∧ c'.opened = c.opened ∧
        ReflTransGen (Cursor.Advances scripts) c c' ∧
        Ends c.endTag? c'.rest)
      (FailsFrom scripts c)

/-- What reading one item does with some fuel. -/
def FragmentRun : Prop :=
  ∀ c : Cursor, 3 * c.rest.length + 2 ≤ fuel →
    ¬ Ends c.endTag? c.rest →
    Meets (readFragment scripts fuel c.endTag?) c.state
      (fun _ s => GoesOn scripts c s) (FailsFrom scripts c)

/-- What reading an element does with some fuel. -/
def ElementRun : Prop :=
  ∀ (c : Cursor) (name : List Char), 3 * c.rest.length + 1 ≤ fuel → tagName? c.rest = some name →
    ¬ scriptStart <+: c.rest →
    Meets (readElement scripts fuel (String.ofList name)) c.state
      (fun _ s => GoesOn scripts c s) (FailsFrom scripts c)

end

section

variable {scripts : ScriptReader} {fuel : Nat}

theorem readFragment_run (element : ElementRun scripts fuel) : FragmentRun scripts (fuel + 1) := by
  rintro ⟨opened, p, text⟩ enough goesOn
  by_cases isScript : scriptStart <+: text
  · refine .of_eq ?_ (readFragment_script fuel isScript)
    exact (readScript_run isScript).bind fun _ _ goesOn => meets_of_ok rfl goesOn
  cases found : tagName? text with
  | some name =>
    refine .of_eq ?_ (readFragment_element fuel isScript found)
    have run := element ⟨opened, p, text⟩ name (by simpa using enough) found isScript
    exact run.bind fun _ _ goesOn => meets_of_ok rfl goesOn
  | none =>
    cases text with
    | nil => exact absurd (.inl rfl) goesOn
    | cons d text =>
      by_cases isText : isTextChar d = true
      · exact (readText_run isText _).of_eq (readFragment_text fuel isText)
      obtain rfl | rfl : d = '<' ∨ d = '{' := by
        simpa [isTextChar, or_iff_not_imp_left] using isText
      · exact (failUnreadable_run found goesOn _).of_eq (readFragment_unreadable fuel found)
      · refine .of_eq ?_ (readFragment_expression fuel)
        exact readExpression_run.bind fun _ _ goesOn => meets_of_ok rfl goesOn

theorem readFragments_run (fragment : FragmentRun scripts fuel)
    (behind : FragmentsRun scripts fuel) : FragmentsRun scripts (fuel + 1) := by
  intro c enough
  by_cases ends : Ends c.endTag? c.rest
  · exact meets_of_ok (readFragments_end fuel ends) ⟨c, rfl, rfl, .refl, ends⟩
  refine .of_eq ?_ (readFragments_step fuel ends)
  refine (fragment c (by omega) ends).bind ?_
  rintro item s ⟨c₁, rfl, same, run⟩
  have shorter := Cursor.shorter_of_reached run
  have others := (behind c₁ (by omega)).imp (fun _ _ read => read) fun _ fails =>
    fails.before run.to_reflTransGen same
  have sameTag : c₁.endTag? = c.endTag? := congrArg (·.head?.map OpenElement.endTag) same
  rw [same, sameTag] at others
  refine others.bind ?_
  rintro fragments s ⟨c₂, rfl, same', run', ends⟩
  exact meets_of_ok rfl ⟨c₂, rfl, same', run.to_reflTransGen.trans run', ends⟩

theorem readElement_run (content : FragmentsRun scripts fuel) : ElementRun scripts (fuel + 1) := by
  rintro ⟨opened, p, text⟩ name enough found noScript
  refine .of_eq ?_ (readElement_succ fuel (String.ofList name))
  refine meets_bind.2 ?_
  have startTag : Meets (readStartTag scripts (String.ofList name)) (p.state text) _ _ :=
    meets_readStartTag found noScript
  cases read : readStartTag scripts (String.ofList name) (p.state text) with
  | error failure =>
    obtain ⟨plain, behind⟩ := startTag.of_error read
    have halted : Cursor.Halted scripts ⟨opened, p, text⟩ := by
      refine Cursor.halted_of_next? ((Cursor.next?_startTag noScript found).trans ?_)
      rw [Cursor.state, read]
      rfl
    exact meets_of_error read
      (failsFrom_of_halted halted plain.unclosed behind fun _ _ => plain.noEndTag)
  | ok result =>
    obtain ⟨attributes, s⟩ := result
    obtain ⟨tag, rest, q, rfl, rfl, opening⟩ := startTag.of_ok read
    refine meets_of_ok read ?_
    let element : OpenElement := ⟨String.ofList name, p.offset⟩
    have step : Cursor.Advances scripts ⟨opened, p, tag ++ rest⟩ ⟨element :: opened, q, rest⟩ :=
      .enter opening
    have shorter : rest.length < (tag ++ rest).length := step.shorter
    have inner := (content ⟨element :: opened, q, rest⟩ (by simp only at enough ⊢; omega)).imp
      (fun _ _ read => read) fun _ fails => fails.noted (.single step) rfl
    refine (meets_inside inner).bind ?_
    rintro children s ⟨⟨_, r, left⟩, rfl, rfl, run, ends⟩
    refine meets_bind.2 (meets_inside (meets_eat ?_ fun absent => ?missing))
    case missing =>
      -- the children stop before an end tag or at the end, so nothing is left here
      have none : left = [] := by
        rcases ends with none | ⟨literal, tagged, follows⟩
        · exact none
        · cases tagged
          exact absurd follows absent
      subst none
      exact failsFrom_end.noted (.head step run) rfl
    rintro rest rfl
    exact meets_of_ok rfl ⟨⟨opened, r.past element.endTag.toList, rest⟩, rfl, rfl,
      .head' step (run.tail .leave)⟩

/-- What the three functions do with any fuel. -/
theorem reading_runs (scripts : ScriptReader) (fuel : Nat) :
    FragmentsRun scripts fuel ∧ FragmentRun scripts fuel ∧ ElementRun scripts fuel := by
  induction fuel with
  | zero =>
    refine ⟨?_, ?_, ?_⟩
    · intro c enough
      omega
    · intro c enough
      omega
    · intro c name enough
      omega
  | succ fuel ih =>
    obtain ⟨fragments, fragment, element⟩ := ih
    exact ⟨readFragments_run fragment fragments, readFragment_run element,
      readElement_run fragments⟩

end

/-! ## Hints -/

/-- A diagnostic has the standing hint of its code and then the hints for the unclosed elements. -/
theorem hints_diagnostic (failure : Failure) (file : String) (source : List Char) :
    (failure.diagnostic file source).hints =
      (Diagnostic.standingHint failure.fault.code).toList ++
        failure.unclosed.map (·.hint source) := by
  have added : ∀ (elements : List OpenElement) (d : Diagnostic),
      (elements.foldl (fun d element => d.withHint (element.hint source)) d).hints =
        d.hints ++ elements.map (·.hint source) := by
    intro elements
    induction elements with
    | nil => exact fun d => (List.append_nil _).symm
    | cons element rest ih =>
      intro d
      rw [List.foldl_cons, ih, Diagnostic.withHint, List.map_cons, List.append_assoc,
        List.singleton_append]
  exact added failure.unclosed _

/-- A diagnostic tells the literal that was looked for. -/
theorem expected_diagnostic_iff {failure : Failure} {file literal : String} {source : List Char} :
    (failure.diagnostic file source).expected = some literal ↔
      failure.fault = .expected literal := by
  obtain ⟨hints, same⟩ := diagnostic_eq failure file source
  have expected : (failure.diagnostic file source).expected = failure.fault.literal? := by
    rw [same]
    rfl
  rw [expected]
  cases failure.fault <;> simp [Fault.literal?]

/-- The hints of a diagnostic, told by the cursor at which the reading of a source halts: it is the
only one, and its open elements have their start tags where they should. -/
structure HintsUnclosed (scripts : ScriptReader) (source : List Char) (d : Diagnostic)
    (stop : Cursor) : Prop where
  run : ReflTransGen (Cursor.Advances scripts) (.start source) stop
  halted : stop.Halted scripts
  only : ∀ c, ReflTransGen (Cursor.Advances scripts) (.start source) c → c.Halted scripts → c = stop
  place : stop.IsIn source
  behind : stop.read.offset ≤ d.offset
  /-- Behind the standing hint, there is one hint for each open element whose end tag is the literal
  that was looked for, innermost first. -/
  hints : d.hints = (Diagnostic.standingHint d.code).toList ++
    (stop.opened.filter fun element => d.expected = some element.endTag).map (·.hint source)
  /-- A failure inside a start tag adds no hints. -/
  inTag : (tagName? stop.rest).isSome → ¬ scriptStart <+: stop.rest →
    d.hints = (Diagnostic.standingHint d.code).toList

theorem failsFrom_of_readComponent {scripts : ScriptReader} {source : List Char} {failure : Failure}
    (read : readComponent scripts source = .error failure) :
    FailsFrom scripts (.start source) failure := by
  have run : Meets (readFragments scripts (3 * source.length + 3) none)
      (Progress.start.state source) _ _ :=
    (reading_runs scripts _).1 (.start source) (Nat.le_refl _)
  rw [readComponent] at read
  split at read
  next => cases read
  next found ended =>
    obtain rfl := Except.error.inj read
    exact run.of_error ended

/-- **Unclosed elements are hinted at exactly.** If a component cannot be read, the reading of its
source halts at one cursor. Behind its standing hint the diagnostic has one hint for each element
that is open there and whose end tag is the literal that was looked for, from the innermost one
outward. -/
theorem hintsUnclosed_of_failed (scripts : ScriptReader) (file : String) (source : List Char)
    (d : Diagnostic)
    (failed : (readComponent scripts source).mapError (·.diagnostic file source) = .error d) :
    ∃ stop, HintsUnclosed scripts source d stop := by
  cases read : readComponent scripts source with
  | ok component =>
    rw [read] at failed
    cases failed
  | error failure =>
    rw [read] at failed
    obtain rfl : failure.diagnostic file source = d := Except.error.inj failed
    -- how the reading failed says where the cursors halt
    obtain ⟨stop, inner, halts, opened, unclosed⟩ := failsFrom_of_readComponent read
    obtain rfl : inner = stop.opened := by simpa [Cursor.start] using opened.symm
    obtain ⟨hints, same⟩ := diagnostic_eq failure file source
    have code : (failure.diagnostic file source).code = failure.fault.code := by rw [same]; rfl
    have offset : (failure.diagnostic file source).offset = failure.offset := by rw [same]; rfl
    refine ⟨stop, halts.run, halts.halted, fun c run halted => ?_, ?_, ?_, ?_, ?_⟩
    · exact halted.unique run halts.run halts.halted
    · exact Cursor.isIn_of_reached (Cursor.isIn_start source) halts.run
    · exact offset ▸ halts.behind
    · rw [hints_diagnostic, code, unclosed]
      simp only [expected_diagnostic_iff]
    · intro tag noScript
      have none : failure.unclosed = [] := by
        rw [unclosed]
        exact List.filter_eq_nil_iff.2 fun element _ => by
          simpa using halts.inTag tag noScript element
      rw [hints_diagnostic, code, none, List.map_nil, List.append_nil]

/-- A paragraph in an element of another name in a paragraph, none of which is closed. -/
def neverClosed : List Char := ['<', 'p', '>', '<', 'b', '>', '<', 'p', '>']

/-- Both paragraphs are hinted at, and the element between them is not. -/
theorem hintsUnclosed_neverClosed :
    ∃ d, (readComponent rejectingReader neverClosed).mapError (·.diagnostic "page" neverClosed) =
        .error d ∧
      d.expected = some "</p>" ∧
      d.hints.drop 1 = ["<p> opened at 1:7 is never closed", "<p> opened at 1:1 is never closed"] ∧
      ∃ stop, HintsUnclosed rejectingReader neverClosed d stop :=
  ⟨Failure.diagnostic "page" neverClosed ⟨.expected "</p>", 9, [⟨"p", 6⟩, ⟨"p", 0⟩]⟩, rfl, rfl,
    by decide +kernel, hintsUnclosed_of_failed rejectingReader "page" neverClosed _ rfl⟩

end ReactiveMarkup.Markup
