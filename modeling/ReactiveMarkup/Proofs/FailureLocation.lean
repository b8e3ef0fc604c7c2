import ReactiveMarkup.Proofs.MarkupParsing

/-!
# Where the reading of markup fails

A component that cannot be read yields one diagnostic. It points at a place between two characters
of the source, and what its code says is true of that place: a literal is missing there, nothing of
markup starts there, or an embedded script starts there that was rejected (`LocatedIn`). Reading
itself never runs out of fuel: a run gives the same result with any more of it
(`readFragments_eq_of_le`).
-/

namespace ReactiveMarkup.Markup

open Reader

variable {scripts : ScriptReader}

/-! ## Fuel -/

namespace Reader

variable {α β : Type} {reader other : Reader α} {next next' : α → Reader β} {s : ReaderState}
  {ok : α → ReaderState → Prop} {bad : Failure → Prop}

theorem bind_congr_left (same : reader s = other s) : (reader >>= next) s = (other >>= next) s := by
  show (reader s >>= fun (a, s) => next a s) = (other s >>= fun (a, s) => next a s)
  rw [same]

theorem bind_congr_right (h : Meets reader s ok bad)
    (same : ∀ a s', ok a s' → next a s' = next' a s') :
    (reader >>= next) s = (reader >>= next') s := by
  match result : reader s with
  | .ok (a, s') =>
    rw [bind_ok result, bind_ok result]
    exact same a s' (h.of_ok result)
  | .error failure => rw [bind_error result, bind_error result]

theorem inside_congr (element : OpenElement) (same : reader s = other s) :
    inside element reader s = inside element other s := by
  rw [inside, inside, same]

end Reader

section

variable (scripts : ScriptReader) (fuel : Nat)

/-- A run does not change with one more unit of fuel. -/
def FragmentsStable : Prop :=
  ∀ (opened : List OpenElement) (text : List Char) (p : Progress), 3 * text.length + 3 ≤ fuel →
    readFragments scripts (fuel + 1) (opened.head?.map OpenElement.endTag) (p.state text) =
      readFragments scripts fuel (opened.head?.map OpenElement.endTag) (p.state text)

/-- Reading one item does not change with one more unit of fuel. -/
def FragmentStable : Prop :=
  ∀ (opened : List OpenElement) (text : List Char) (p : Progress), 3 * text.length + 2 ≤ fuel →
    readFragment scripts (fuel + 1) (opened.head?.map OpenElement.endTag) (p.state text) =
      readFragment scripts fuel (opened.head?.map OpenElement.endTag) (p.state text)

/-- Reading an element does not change with one more unit of fuel. -/
def ElementStable : Prop :=
  ∀ (name text : List Char) (p : Progress), 3 * text.length + 1 ≤ fuel → tagName? text = some name →
    ¬ scriptStart <+: text →
    readElement scripts (fuel + 1) (String.ofList name) (p.state text) =
      readElement scripts fuel (String.ofList name) (p.state text)

end

section

variable {fuel : Nat}

theorem readElement_stable (content : FragmentsStable scripts fuel) :
    ElementStable scripts (fuel + 1) := by
  intro name text p enough found noScript
  rw [readElement_succ, readElement_succ]
  have reached : Reached scripts p [] [] [] p := .start
  refine bind_congr_right (readStartTag_outcome reached rfl found noScript) ?_
  rintro attributes s ⟨tag, rest, q, rfl, rfl, long, -⟩
  have shorter : 3 * rest.length + 3 ≤ fuel := by simp at enough; omega
  exact bind_congr_left (inside_congr _ (content [⟨String.ofList name, p.offset⟩] rest q shorter))

theorem readFragment_stable (element : ElementStable scripts fuel) :
    FragmentStable scripts (fuel + 1) := by
  intro opened text p enough
  by_cases isScript : scriptStart <+: text
  · rw [readFragment_script _ isScript, readFragment_script _ isScript]
  cases found : tagName? text with
  | some name =>
    rw [readFragment_element _ isScript found, readFragment_element _ isScript found]
    exact bind_congr_left (element name text p (by omega) found isScript)
  | none =>
    rw [readFragment_other _ isScript, readFragment_other _ isScript, found]

theorem readFragments_stable (fragment : FragmentStable scripts fuel)
    (behind : FragmentsStable scripts fuel) : FragmentsStable scripts (fuel + 1) := by
  intro opened text p enough
  by_cases ends : Ends (opened.head?.map OpenElement.endTag) text
  · rw [readFragments_end _ ends, readFragments_end _ ends]
  rw [readFragments_step _ ends, readFragments_step _ ends]
  have outcome := (reading_outcomes scripts p opened text fuel).2.1 opened [] text p .start rfl
    (by omega) ends
  refine (bind_congr_left (fragment opened text p (by omega))).trans (bind_congr_right outcome ?_)
  rintro fragment s ⟨item, rest, q, some, rfl, rfl, -⟩
  exact bind_congr_left (behind opened rest q (enough_behind some enough))

theorem stable (scripts : ScriptReader) (fuel : Nat) :
    FragmentsStable scripts fuel ∧ FragmentStable scripts fuel ∧ ElementStable scripts fuel := by
  induction fuel with
  | zero =>
    refine ⟨?_, ?_, ?_⟩
    · intro opened text p enough
      omega
    · intro opened text p enough
      omega
    · intro name text p enough
      omega
  | succ fuel ih =>
    obtain ⟨fragments, fragment, element⟩ := ih
    exact ⟨readFragments_stable fragment fragments, readFragment_stable element,
      readElement_stable fragments⟩

/-- A run over a text does not depend on the fuel, if there is enough of it. -/
theorem readFragments_eq_of_le (scripts : ScriptReader) (text : List Char)
    (enough : 3 * text.length + 3 ≤ fuel) :
    readFragments scripts fuel none (Progress.start.state text) =
      readFragments scripts (3 * text.length + 3) none (Progress.start.state text) := by
  induction fuel, enough using Nat.le_induction with
  | base => rfl
  | succ fuel enough ih => exact ((stable scripts fuel).1 [] text .start enough).trans ih

end

/-! ## What stands before a failure -/

section

variable {p q r : Progress} {text text' : List Char} {fragments fragments' : List Fragment}

/-- A run of text may be put in front of items; it joins a run that they start with. -/
theorem Items.run_append {run : List Char} (some : run ≠ [])
    (fits : ∀ c ∈ run, isTextChar c = true) (h : Items scripts (p.past run) text fragments q) :
    ∃ joined, Items scripts p (run ++ text) joined q := by
  cases h with
  | nil => exact ⟨_, .text some fits (by simp [Stops]) .nil⟩
  | script first accepted behind =>
    exact ⟨_, .text some fits (by simp [Stops, scriptStart_eq, isTextChar])
      (.script first accepted behind)⟩
  | element opening content behind =>
    refine ⟨_, .text some fits ?_ (.element opening content behind)⟩
    obtain ⟨-, -, -, -⟩ := opening
    simp [Stops, isTextChar]
  | interpolation balanced accepted behind =>
    exact ⟨_, .text some fits (by simp [Stops, isTextChar])
      (.interpolation balanced accepted behind)⟩
  | @text _ _ run' rest _ _ fits' longest behind =>
    rw [Progress.past_past] at behind
    have joined : ∀ c ∈ run ++ run', isTextChar c = true := List.forall_mem_append.2 ⟨fits, fits'⟩
    rw [← List.append_assoc]
    exact ⟨_, .text (by simp [some]) joined longest behind⟩

/-- Items behind items are items. -/
theorem Items.append (h : Items scripts p text fragments q)
    (h' : Items scripts q text' fragments' r) :
    ∃ joined, Items scripts p (text ++ text') joined r := by
  induction h with
  | nil => exact ⟨_, h'⟩
  | script first accepted _ ih =>
    obtain ⟨joined, behind⟩ := ih h'
    exact ⟨joined, by simpa using Items.script first accepted behind⟩
  | element opening content _ _ ih =>
    obtain ⟨joined, behind⟩ := ih h'
    exact ⟨_, by simpa using Items.element opening content behind⟩
  | interpolation balanced accepted _ ih =>
    obtain ⟨joined, behind⟩ := ih h'
    exact ⟨_, by simpa using Items.interpolation balanced accepted behind⟩
  | text some fits _ _ ih =>
    obtain ⟨joined, behind⟩ := ih h'
    rw [List.append_assoc]
    exact behind.run_append some fits

/-- A reading that is outside of all elements has read whole items. -/
theorem Reached.items_of_outside {before : List Char} {opened : List OpenElement}
    (reached : Reached scripts p [] opened before q) (outside : opened = []) :
    ∃ fragments, Items scripts p before fragments q := by
  induction reached with
  | start => exact ⟨[], .nil⟩
  | items _ whole ih =>
    obtain ⟨fragments, read⟩ := ih outside
    exact read.append whole
  | enter => cases outside

end

/-! ## Diagnostics -/

section

variable (scripts : ScriptReader) (source : List Char)

/-- A node id that is free when an embedded script is read whose first mark follows a text. -/
def FreeBehind (before : List Char) (next : Nat) : Prop :=
  ∃ opened p, p.nextId = next ∧
    (Reached scripts .start [] opened before p ∨
      ∃ inner name, before = inner ++ (name ++ ['=']) ∧ ReachedTag scripts .start [] opened inner p)

/-- An embedded script that starts at an offset and was rejected. -/
inductive RejectedAt : Nat → Prop
  | program {before code rest : List Char} {next : Nat}
      (whole : source = before ++ (scriptStart ++ (code ++ (scriptEnd ++ rest))))
      (isFirst : IsFirst scriptEnd code) (free : FreeBehind scripts before next)
      (rejected : scripts.program code next = none) :
      RejectedAt (Text.byteSize (before ++ scriptStart))
  | expression {before code rest : List Char} {next : Nat}
      (whole : source = before ++ '{' :: (code ++ '}' :: rest)) (balanced : Balanced .code code)
      (free : FreeBehind scripts before next) (rejected : scripts.expression code next = none) :
      RejectedAt (Text.byteSize (before ++ ['{']))

/-- What a diagnostic says about its place, and that it is true of the source. -/
structure LocatedIn (d : Diagnostic) : Prop where
  inside : d.offset ≤ Text.byteSize source
  /-- The offset falls between two characters. -/
  between : ∃ rest, Text.dropBytes? d.offset source = some rest
  position : d.position = Text.positionAt source d.offset
  kind : d.code ∈ ["FC-PARSE-001", "FC-PARSE-002", "FC-SCRIPT-001"]
  /-- A literal is missing. -/
  missing : d.code = "FC-PARSE-001" → ∃ literal rest, d.expected = some literal ∧
    Text.dropBytes? d.offset source = some rest ∧ ¬ literal.toList <+: rest
  /-- No element starts there, and all that were open before are closed. -/
  stray : d.code = "FC-PARSE-002" → d.expected = none ∧ ∃ before rest fragments p,
    source = before ++ '<' :: rest ∧ d.offset = Text.byteSize before ∧ Stops Char.isAlpha rest ∧
      Items scripts .start before fragments p
  /-- An embedded script starts there. -/
  rejected : d.code = "FC-SCRIPT-001" → RejectedAt scripts source d.offset

end

section

variable {source : List Char} {opened : List OpenElement} {fault : Fault} {offset : Nat}

theorem Fault.code_eq_expected (same : fault.code = "FC-PARSE-001") :
    ∃ literal, fault = .expected literal := by
  cases fault <;> simp_all [Fault.code]

theorem Fault.code_eq_stray (same : fault.code = "FC-PARSE-002") :
    ∃ found, fault = .stray found := by
  cases fault <;> simp_all [Fault.code]

theorem Fault.code_eq_rejected (same : fault.code = "FC-SCRIPT-001") :
    ∃ unit, fault = .rejected unit := by
  cases fault <;> simp_all [Fault.code]

theorem Reached.byteSize_eq {before : List Char} {p : Progress}
    (reached : Reached scripts .start [] opened before p) : p.offset = Text.byteSize before :=
  reached.offset.trans (Nat.zero_add _)

theorem ReachedTag.byteSize_eq {before : List Char} {p : Progress}
    (reached : ReachedTag scripts .start [] opened before p) : p.offset = Text.byteSize before :=
  reached.offset.trans (Nat.zero_add _)

/-- A literal that is missing does not stand where the reading is stuck. -/
theorem Stuck.absent {literal : String}
    (stuck : Stuck scripts .start [] source opened (.expected literal) offset) :
    ∃ rest, Text.dropBytes? offset source = some rest ∧ ¬ literal.toList <+: rest := by
  cases stuck with
  | @missing _ place rest _ _ _ _ whole absent =>
    refine ⟨rest, ?_, absent⟩
    have offset : (Progress.start.past place).offset = Text.byteSize place := Nat.zero_add _
    rw [offset, whole]
    exact Text.dropBytes?_byteSize_append place rest

/-- A stray angle bracket stands behind whole items. -/
theorem Stuck.behindItems {found : Char}
    (stuck : Stuck scripts .start [] source opened (.stray found) offset) :
    ∃ before rest fragments p, source = before ++ '<' :: rest ∧ offset = Text.byteSize before ∧
      Stops Char.isAlpha rest ∧ Items scripts .start before fragments p := by
  cases stuck with
  | @stray before rest p outside reached whole noName =>
    obtain ⟨fragments, items⟩ := reached.items_of_outside outside
    exact ⟨before, rest, fragments, p, whole, reached.byteSize_eq, noName, items⟩

/-- A script that is rejected starts where the reading is stuck. -/
theorem Stuck.rejectedAt {unit : ScriptUnit}
    (stuck : Stuck scripts .start [] source opened (.rejected unit) offset) :
    RejectedAt scripts source offset := by
  -- each unit of script starts right behind the mark that opens it
  cases stuck with
  | @program before code rest p reached whole isFirst rejected =>
    have offset : (p.past scriptStart).offset = Text.byteSize (before ++ scriptStart) := by
      simp [reached.byteSize_eq]
    rw [offset]
    exact .program whole isFirst ⟨opened, p, rfl, .inl reached⟩ rejected
  | @interpolation before code rest p reached whole balanced rejected =>
    have offset : (p.past ['{']).offset = Text.byteSize (before ++ ['{']) := by
      simp [reached.byteSize_eq]
    rw [offset]
    exact .expression whole balanced ⟨opened, p, rfl, .inl reached⟩ rejected
  | @entry before name code rest p reached named fits whole balanced rejected =>
    have offset : (p.past (name ++ ['=', '{'])).offset =
        Text.byteSize ((before ++ (name ++ ['='])) ++ ['{']) := by
      simp [reached.byteSize_eq]
    have place : source = (before ++ (name ++ ['='])) ++ '{' :: (code ++ '}' :: rest) := by
      simp [whole]
    rw [offset]
    exact .expression place balanced ⟨opened, p, rfl, .inr ⟨before, name, rfl, reached⟩⟩ rejected

/-- A reading is stuck between two characters. -/
theorem Stuck.between (stuck : Stuck scripts .start [] source opened fault offset) :
    ∃ before rest, source = before ++ rest ∧ offset = Text.byteSize before := by
  cases fault with
  | expected literal =>
    cases stuck with
    | missing _ _ whole => exact ⟨_, _, whole, Nat.zero_add _⟩
  | stray found =>
    cases stuck with
    | stray _ reached whole => exact ⟨_, _, whole, reached.byteSize_eq⟩
  | rejected unit =>
    cases stuck.rejectedAt with
    | program whole => exact ⟨_, _, by rw [whole, List.append_assoc], rfl⟩
    | expression whole => exact ⟨_, _, by rw [whole, List.append_assoc]; rfl, rfl⟩

theorem locatedIn_of_stuck {d : Diagnostic} (code : d.code = fault.code)
    (expected : d.expected = fault.literal?)
    (position : d.position = Text.positionAt source d.offset)
    (stuck : Stuck scripts .start [] source opened fault d.offset) :
    LocatedIn scripts source d := by
  obtain ⟨before, rest, whole, place⟩ := stuck.between
  have behind : Text.dropBytes? d.offset source = some rest := by
    rw [place, whole]
    exact Text.dropBytes?_byteSize_append before rest
  refine ⟨by rw [whole, place]; simp, ⟨rest, behind⟩, position, ?_, ?_, ?_, ?_⟩
  · rw [code]
    cases fault <;> simp [Fault.code]
  · intro same
    obtain ⟨literal, rfl⟩ := Fault.code_eq_expected (code.symm.trans same)
    obtain ⟨rest, place, absent⟩ := stuck.absent
    exact ⟨literal, rest, expected, place, absent⟩
  · intro same
    obtain ⟨found, rfl⟩ := Fault.code_eq_stray (code.symm.trans same)
    exact ⟨expected, stuck.behindItems⟩
  · intro same
    obtain ⟨unit, rfl⟩ := Fault.code_eq_rejected (code.symm.trans same)
    exact stuck.rejectedAt

/-- The hints that a failure adds leave the rest of its diagnostic as it is. -/
theorem diagnostic_eq (failure : Failure) (file : String) (source : List Char) :
    ∃ hints, failure.diagnostic file source =
      { Diagnostic.ofFault failure.fault file source failure.offset with hints := hints } := by
  rw [Failure.diagnostic]
  generalize Diagnostic.ofFault failure.fault file source failure.offset = d
  induction failure.unclosed generalizing d with
  | nil => exact ⟨d.hints, rfl⟩
  | cons element unclosed ih => exact ih (d.withHint (element.hint source))

theorem locatedIn_diagnostic {failure : Failure} (file : String)
    (fails : Fails scripts .start [] source [] failure) :
    LocatedIn scripts source (failure.diagnostic file source) := by
  obtain ⟨inner, stuck, -⟩ := fails
  obtain ⟨hints, same⟩ := diagnostic_eq failure file source
  rw [same]
  exact locatedIn_of_stuck rfl rfl rfl stuck

end

/-- Reading a component comes to an end, and if it fails, the diagnostic is right about its
place. -/
theorem readComponent_failure_located (scripts : ScriptReader) (file : String)
    (source : List Char) :
    (∀ fuel, 3 * source.length + 3 ≤ fuel →
      readFragments scripts fuel none (Progress.start.state source) =
        readFragments scripts (3 * source.length + 3) none (Progress.start.state source)) ∧
    ∀ d, (readComponent scripts source).mapError (·.diagnostic file source) = .error d →
      LocatedIn scripts source d := by
  refine ⟨fun fuel enough => readFragments_eq_of_le scripts source enough, ?_⟩
  intro d failed
  cases read : readComponent scripts source with
  | ok component =>
    rw [read] at failed
    cases failed
  | error failure =>
    rw [read] at failed
    obtain rfl : failure.diagnostic file source = d := Except.error.inj failed
    exact locatedIn_diagnostic file (fails_of_readComponent read)

/-- A reader of scripts that rejects all of them. -/
def rejectingReader : ScriptReader := ⟨fun _ _ => none, fun _ _ => none⟩

/-- The value of an attribute that is rejected, behind a character of two bytes. -/
theorem rejected_attribute_located :
    ∃ d, (readComponent rejectingReader ['é', '<', 'p', ' ', 'a', '=', '{', 'x', '}', '>']).mapError
        (·.diagnostic "page" ['é', '<', 'p', ' ', 'a', '=', '{', 'x', '}', '>']) = .error d ∧
      d.code = "FC-SCRIPT-001" ∧ d.offset = 8 ∧
      LocatedIn rejectingReader ['é', '<', 'p', ' ', 'a', '=', '{', 'x', '}', '>'] d := by
  refine ⟨.ofFault (.rejected .expression) "page"
    ['é', '<', 'p', ' ', 'a', '=', '{', 'x', '}', '>'] 8, rfl, rfl, rfl, ?_⟩
  exact (readComponent_failure_located rejectingReader "page" _).2 _ rfl

end ReactiveMarkup.Markup
