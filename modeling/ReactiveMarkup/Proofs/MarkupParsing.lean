import ReactiveMarkup.Proofs.MarkupReading

/-!
# Reading markup is parsing by the grammar

The items of markup are read by three functions that call each other, with fuel. One step of each
is described from what the others do with less fuel, and from the steps follows what a whole run
does (`reading_outcomes`): it takes a sequence of items, or it is stuck. The other way round a run
takes every sequence of items of the grammar as a whole (`readFragments_of_items`). Together they
say that a component is read if and only if its source is a sequence of items.
-/

namespace ReactiveMarkup.Markup

open Script (Expression Statement)

open Reader

variable {scripts : ScriptReader}

/-! ## Names of elements -/

theorem tagName?_eq_some_iff {text name : List Char} :
    tagName? text = some name ↔
      ∃ rest, text = '<' :: (name ++ rest) ∧ IsTagName name ∧ Stops isTagChar rest := by
  constructor
  · intro found
    unfold tagName? at found
    split at found
    next c letters =>
      split at found
      next isAlpha =>
        obtain ⟨run, rest, rfl, fits, longest⟩ := exists_longest isTagChar letters
        rw [(takeWhile_of_stops fits longest).1, Option.some.injEq] at found
        subst found
        exact ⟨rest, rfl, ⟨c, run, rfl, isAlpha, fits⟩, longest⟩
      next => cases found
    next => cases found
  · rintro ⟨rest, rfl, ⟨c, run, rfl, isAlpha, fits⟩, longest⟩
    rw [List.cons_append, tagName?, if_pos isAlpha, (takeWhile_of_stops fits longest).1]

/-- Elements start with an angle bracket. -/
theorem tagName?_of_ne {c : Char} (other : c ≠ '<') (rest : List Char) :
    tagName? (c :: rest) = none := by
  unfold tagName?
  split
  next same => exact absurd (List.cons.inj same).1 other
  next => rfl

/-- No element starts where a lone angle bracket stands. -/
theorem tagName?_eq_none {rest : List Char} (none : tagName? ('<' :: rest) = none) :
    Stops Char.isAlpha rest := by
  intro c head
  cases rest with
  | nil => cases head
  | cons d rest =>
    obtain rfl : d = c := Option.some.inj head
    by_contra isAlpha
    rw [Bool.not_eq_false] at isAlpha
    rw [tagName?, if_pos isAlpha] at none
    cases none

/-- Whether a start tag is one of a script block does not depend on what follows it. -/
theorem prefix_scriptStart {tag rest : List Char} (ends : '>' ∈ tag)
    (lead : scriptStart <+: tag ++ rest) : scriptStart <+: tag := by
  by_cases long : scriptStart.length ≤ tag.length
  · exact List.prefix_of_prefix_length_le lead (List.prefix_append tag rest) long
  -- a shorter tag would have its last character inside the literal
  · have short : tag.length ≤ 7 := by
      have : scriptStart.length = 8 := rfl
      omega
    have part : tag <+: scriptStart :=
      List.prefix_of_prefix_length_le (List.prefix_append tag rest) lead (by omega)
    have found : '>' ∈ scriptStart.take 7 :=
      (List.prefix_take_iff.2 ⟨part, short⟩).subset ends
    exact absurd found (by decide)

/-! ## Outcomes of the items -/

/-- What has been done when an item has been taken from the front of a text: it stands for some
fragments, in front of whatever items the rest starts with. -/
def TakesItem (scripts : ScriptReader) (p : Progress) (text : List Char)
    (fragments : List Fragment) (s : ReaderState) : Prop :=
  ∃ item rest q, item ≠ [] ∧ text = item ++ rest ∧ s = q.state rest ∧
    ∀ more others r, more <+: rest → Items scripts q more others r →
      Items scripts p (item ++ more) (fragments ++ others) r

section

variable {first p : Progress} {outer opened : List OpenElement} {source before text : List Char}

theorem eat_scriptStart :
    eat "<script>" (p.state (scriptStart ++ text)) = .ok ((), (p.past scriptStart).state text) :=
  eat_append "<script>"

theorem eat_scriptEnd :
    eat "</script>" (p.state (scriptEnd ++ text)) = .ok ((), (p.past scriptEnd).state text) :=
  eat_append "</script>"

theorem readScript_eq {code rest : List Char} {program : List Statement} {next : Nat}
    (isFirst : IsFirst scriptEnd code)
    (accepted : scripts.program code p.nextId = some (program, next)) :
    readScript scripts (p.state (scriptStart ++ (code ++ (scriptEnd ++ rest)))) =
      .ok ((),
        ((p.past (scriptStart ++ (code ++ scriptEnd))).scripted program next).state rest) := by
  have split : Text.splitAt? "</script>".toList (code ++ (scriptEnd ++ rest)) = some (code, rest) :=
    splitAt?_eq_some_iff.2 ⟨rfl, isFirst⟩
  rw [readScript, bind_ok eat_scriptStart, get_bind]
  simp only [Progress.rest_state, split, Progress.nextId_state, Progress.nextId_past, accepted,
    List.drop_left]
  let behind := ((p.past scriptStart).past code).scripted program next
  have ended : eat "</script>" (behind.state (scriptEnd ++ rest)) =
      .ok ((), (behind.past scriptEnd).state rest) := eat_scriptEnd
  refine Eq.trans ended ?_
  rw [Progress.past_scripted, Progress.past_past, Progress.past_past]

/-- A script block is read up to the first end tag for scripts. -/
theorem meets_readScript {ok : Unit → ReaderState → Prop} {bad : Failure → Prop}
    (accepted : ∀ code rest program next, text = code ++ (scriptEnd ++ rest) →
      IsFirst scriptEnd code → scripts.program code p.nextId = some (program, next) →
      ok () (((p.past (scriptStart ++ (code ++ scriptEnd))).scripted program next).state rest))
    (rejected : ∀ code rest, text = code ++ (scriptEnd ++ rest) → IsFirst scriptEnd code →
      scripts.program code p.nextId = none →
      bad ⟨.rejected .program, (p.past scriptStart).offset, []⟩)
    (unended : bad ⟨.expected "</script>", (p.past (scriptStart ++ text)).offset, []⟩) :
    Meets (readScript scripts) (p.state (scriptStart ++ text)) ok bad := by
  cases split : Text.splitAt? "</script>".toList text with
  | none =>
    refine meets_of_error ?_ unended
    rw [readScript, bind_ok eat_scriptStart, get_bind]
    simp only [Progress.rest_state, split]
    rw [bind_ok endOffset_eq, Progress.past_past]
    rfl
  | some result =>
    obtain ⟨code, rest⟩ := result
    obtain ⟨rfl, isFirst⟩ : text = code ++ (scriptEnd ++ rest) ∧ IsFirst scriptEnd code :=
      splitAt?_eq_some_iff.1 split
    cases read : scripts.program code p.nextId with
    | none =>
      refine meets_of_error ?_ (rejected code rest rfl isFirst read)
      rw [readScript, bind_ok eat_scriptStart, get_bind]
      simp only [Progress.rest_state, split, Progress.nextId_state, Progress.nextId_past, read]
      rfl
    | some result =>
      obtain ⟨program, next⟩ := result
      exact meets_of_ok (readScript_eq isFirst read)
        (accepted code rest program next rfl isFirst read)

theorem readScript_outcome (reached : Reached scripts first outer opened before p)
    (whole : source = before ++ (scriptStart ++ text)) :
    Meets (readScript scripts) (p.state (scriptStart ++ text))
      (fun _ s => TakesItem scripts p (scriptStart ++ text) [] s)
      (Fails scripts first outer source opened) := by
  refine meets_readScript ?accepted ?rejected ?unended
  case accepted =>
    rintro code rest program next rfl isFirst read
    refine ⟨scriptStart ++ (code ++ scriptEnd), rest, _, by simp [scriptStart_eq], by simp, rfl,
      fun more others r _ behind => ?_⟩
    simpa using Items.script isFirst read behind
  case rejected =>
    rintro code rest rfl isFirst read
    exact (Stuck.program reached whole isFirst read).fails
  case unended =>
    have place : source = before ++ ((scriptStart ++ text) ++ []) := by simp [whole]
    have absent : ¬ "</script>".toList <+: [] := by decide
    exact reached.missing place absent

theorem readExpression_eq {code rest : List Char} {value : Expression} {next : Nat}
    (balanced : Balanced .code code)
    (accepted : scripts.expression code p.nextId = some (value, next)) :
    readExpression scripts (p.state ('{' :: (code ++ '}' :: rest))) =
      .ok (.expression value, ((p.past ('{' :: (code ++ ['}']))).numbered next).state rest) := by
  rw [readExpression, bind_ok (eat_cons rfl),
    bind_ok (readInterpolated_eq (p := p.past ['{']) balanced accepted), bind_ok (eat_cons rfl)]
  simp only [Progress.past_numbered, Progress.past_past, List.singleton_append]
  rfl

/-- An interpolation is read up to the brace that matches its first one. -/
theorem meets_readExpression {ok : Fragment → ReaderState → Prop} {bad : Failure → Prop}
    (accepted : ∀ code rest value next, text = code ++ '}' :: rest → Balanced .code code →
      scripts.expression code p.nextId = some (value, next) →
      ok (.expression value) (((p.past ('{' :: (code ++ ['}']))).numbered next).state rest))
    (rejected : ∀ code rest, text = code ++ '}' :: rest → Balanced .code code →
      scripts.expression code p.nextId = none →
      bad ⟨.rejected .expression, (p.past ['{']).offset, []⟩)
    (unbalanced : bad ⟨.expected "\x7d", (p.past ('{' :: text)).offset, []⟩) :
    Meets (readExpression scripts) (p.state ('{' :: text)) ok bad := by
  refine meets_bind.2 (meets_of_ok (eat_cons rfl) ?_)
  refine meets_bind.2 (meets_readInterpolated ?_ (fun code rest => rejected code rest) ?_)
  · rintro code rest value next rfl balanced read
    refine meets_bind.2 (meets_of_ok (eat_cons rfl) ?_)
    have holds := accepted code rest value next rfl balanced read
    rw [Progress.past_numbered, Progress.past_past, Progress.past_past]
    exact meets_of_ok rfl holds
  · rw [Progress.past_past]
    exact unbalanced

theorem readExpression_outcome (reached : Reached scripts first outer opened before p)
    (whole : source = before ++ '{' :: text) :
    Meets (readExpression scripts) (p.state ('{' :: text))
      (fun fragment s => TakesItem scripts p ('{' :: text) [fragment] s)
      (Fails scripts first outer source opened) := by
  refine meets_readExpression ?accepted ?rejected ?unbalanced
  case accepted =>
    rintro code rest value next rfl balanced accepted
    refine ⟨'{' :: (code ++ ['}']), rest, _, by simp, by simp, rfl,
      fun more others r _ behind => ?_⟩
    simpa using Items.interpolation (p := p) balanced accepted behind
  case rejected =>
    rintro code rest rfl balanced rejected
    exact (Stuck.interpolation reached whole balanced rejected).fails
  case unbalanced =>
    have place : source = before ++ ('{' :: text ++ []) := by simp [whole]
    exact reached.missing place (by simp)

theorem toList_textFragment (run : List Char) :
    (if Text.allBlank run then none else some (.text (String.ofList run)) :
      Option Fragment).toList = textFragments run := by
  unfold textFragments
  split <;> rfl

theorem readText_eq {run rest : List Char} (fits : ∀ c ∈ run, isTextChar c = true)
    (longest : Stops isTextChar rest) :
    ∃ fragment, fragment.toList = textFragments run ∧
      readText (p.state (run ++ rest)) = .ok (fragment, (p.past run).state rest) := by
  obtain ⟨taken, dropped⟩ := takeWhile_of_stops fits longest
  refine ⟨_, toList_textFragment run, ?_⟩
  rw [readText, bind_ok (takeWhile_eq isTextChar), taken, dropped]
  rfl

/-- A run of text is taken as a whole. -/
theorem readText_outcome {c : Char} (isText : isTextChar c = true) (bad : Failure → Prop) :
    Meets readText (p.state (c :: text))
      (fun fragment s => TakesItem scripts p (c :: text) fragment.toList s) bad := by
  obtain ⟨run, rest, rfl, fits, longest⟩ := exists_longest isTextChar text
  have fits : ∀ d ∈ c :: run, isTextChar d = true := List.forall_mem_cons.2 ⟨isText, fits⟩
  obtain ⟨fragment, stands, read⟩ := readText_eq (p := p) fits longest
  refine meets_of_ok read ⟨c :: run, rest, _, by simp, rfl, rfl,
    fun more others r lead behind => ?_⟩
  rw [stands]
  exact .text (List.cons_ne_nil c run) fits (longest.of_prefix lead) behind

/-- Nothing of markup starts at an angle bracket that no name follows: the end tag at hand is
missing there, or it is stray. -/
theorem failUnreadable_outcome {endTag : Option String}
    (tagged : endTag = opened.head?.map OpenElement.endTag)
    (reached : Reached scripts first outer opened before p)
    (whole : source = before ++ '<' :: text) (noName : Stops Char.isAlpha text)
    (goesOn : ∀ literal ∈ endTag, ¬ literal.toList <+: '<' :: text)
    (ok : Option Fragment → ReaderState → Prop) :
    Meets (failUnreadable endTag) (p.state ('<' :: text)) ok
      (Fails scripts first outer source opened) := by
  cases endTag with
  | none =>
    have outside : opened = [] := by
      cases opened with
      | nil => rfl
      | cons => cases tagged
    exact meets_of_error rfl (Stuck.stray outside reached whole noName).fails
  | some literal =>
    have place : source = before ++ ([] ++ '<' :: text) := whole
    exact meets_of_error rfl (reached.missing place (goesOn literal rfl))

end

/-! ## What is read next -/

/-- Whether a run of items ends at a text: nothing is left, or the end tag at hand follows. -/
def Ends (endTag : Option String) (text : List Char) : Prop :=
  text = [] ∨ ∃ literal ∈ endTag, literal.toList <+: text

section

variable {p : Progress} {text : List Char} {endTag : Option String} (fuel : Nat)

theorem readFragment_script (isScript : scriptStart <+: text) :
    readFragment scripts (fuel + 1) endTag (p.state text) =
      (readScript scripts >>= fun _ => pure none) (p.state text) := by
  have test : "<script>".toList.isPrefixOf text = true := List.isPrefixOf_iff_prefix.2 isScript
  rw [readFragment, get_bind, bind_ok (follows_eq "<script>"), if_pos test]

theorem readFragment_other (noScript : ¬ scriptStart <+: text) :
    readFragment scripts (fuel + 1) endTag (p.state text) =
      (match tagName? text with
      | some name => some <$> readElement scripts fuel (String.ofList name)
      | none => do
        if ← follows "\x7b" then some <$> readExpression scripts
        else if text.head?.any isTextChar then readText
        else failUnreadable endTag) (p.state text) := by
  have test : ¬ "<script>".toList.isPrefixOf text = true :=
    fun lead => noScript (List.isPrefixOf_iff_prefix.1 lead)
  rw [readFragment, get_bind, bind_ok (follows_eq "<script>"), if_neg test]
  rfl

theorem readFragment_element {name : List Char} (noScript : ¬ scriptStart <+: text)
    (found : tagName? text = some name) :
    readFragment scripts (fuel + 1) endTag (p.state text) =
      (readElement scripts fuel (String.ofList name) >>= fun fragment => pure (some fragment))
        (p.state text) := by
  rw [readFragment_other fuel noScript, found]
  rfl

theorem readFragment_expression :
    readFragment scripts (fuel + 1) endTag (p.state ('{' :: text)) =
      (readExpression scripts >>= fun fragment => pure (some fragment))
        (p.state ('{' :: text)) := by
  rw [readFragment_other fuel (by simp [scriptStart_eq])]
  rfl

theorem readFragment_text {c : Char} (isText : isTextChar c = true) :
    readFragment scripts (fuel + 1) endTag (p.state (c :: text)) =
      readText (p.state (c :: text)) := by
  obtain ⟨noTag, noBrace⟩ : c ≠ '<' ∧ c ≠ '{' := by simpa [isTextChar] using isText
  have noName := tagName?_of_ne noTag text
  have test : ¬ "\x7b".toList.isPrefixOf (c :: text) = true := by simpa using noBrace.symm
  have noScript : ¬ scriptStart <+: c :: text := by simp [scriptStart_eq, noTag.symm]
  rw [readFragment_other fuel noScript, noName]
  have starts : (c :: text).head?.any isTextChar = true := isText
  dsimp only
  rw [bind_ok (follows_eq "\x7b"), if_neg test, if_pos starts]

theorem readFragment_unreadable (noName : tagName? ('<' :: text) = none) :
    readFragment scripts (fuel + 1) endTag (p.state ('<' :: text)) =
      failUnreadable endTag (p.state ('<' :: text)) := by
  have noScript : ¬ scriptStart <+: '<' :: text := by
    rintro ⟨rest, same⟩
    rw [← same] at noName
    cases noName
  rw [readFragment_other fuel noScript, noName]
  rfl

/-- A start tag. -/
def readStartTag (scripts : ScriptReader) (name : String) : Reader (List Attribute) := do
  eat ("<" ++ name)
  let attributes ← readAttributes scripts ((← get).rest.length + 1)
  eat ">"
  return attributes

/-- What comes behind the start tag of an element. -/
def readContent (scripts : ScriptReader) (fuel : Nat) (element : OpenElement)
    (attributes : List Attribute) : Reader Fragment := do
  let children ← inside element (readFragments scripts fuel (some element.endTag))
  inside element (eat element.endTag)
  return .element element.name attributes children element.offset

theorem readElement_succ (name : String) :
    readElement scripts (fuel + 1) name (p.state text) =
      (readStartTag scripts name >>= readContent scripts fuel ⟨name, p.offset⟩) (p.state text) := by
  rw [readElement, get_bind]
  simp only [readStartTag, readContent, bind_assoc, pure_bind]
  rfl

theorem readFragments_end (ends : Ends endTag text) :
    readFragments scripts (fuel + 1) endTag (p.state text) = .ok ([], p.state text) := by
  rcases ends with rfl | ⟨literal, rfl, follows⟩
  · cases endTag <;> rfl
  · have test : (text.isEmpty || literal.toList.isPrefixOf text) = true := by simp [follows]
    rw [readFragments]
    dsimp only
    rw [bind_ok (follows_eq literal), get_bind, Progress.rest_state, if_pos test]
    rfl

theorem readFragments_step (goesOn : ¬ Ends endTag text) :
    readFragments scripts (fuel + 1) endTag (p.state text) =
      (readFragment scripts fuel endTag >>= fun first =>
        readFragments scripts fuel endTag >>= fun others =>
          pure (first.toList ++ others)) (p.state text) := by
  obtain ⟨some, others⟩ := not_or.1 goesOn
  cases endTag with
  | none =>
    have test : ¬ (text.isEmpty || false) = true := by simpa using some
    rw [readFragments]
    dsimp only
    rw [pure_bind, get_bind, Progress.rest_state, if_neg test]
  | some literal =>
    have test : ¬ (text.isEmpty || literal.toList.isPrefixOf text) = true := by
      simpa using ⟨some, fun lead => others ⟨literal, rfl, lead⟩⟩
    rw [readFragments]
    dsimp only
    rw [bind_ok (follows_eq literal), get_bind, Progress.rest_state, if_neg test]

end

/-! ## Steps of a run -/

/-- Fuel that is enough for a text is enough for what follows an item, one call later. -/
theorem enough_behind {item rest : List Char} {fuel : Nat} (some : item ≠ [])
    (enough : 3 * (item ++ rest).length + 3 ≤ fuel + 1) : 3 * rest.length + 3 ≤ fuel := by
  have := List.length_pos_iff.2 some
  rw [List.length_append] at enough
  omega

-- From one run of items to the next inside it there are three calls, and a start tag between them,
-- so three units of fuel for each character are enough.

section

variable (scripts : ScriptReader) (first : Progress) (outer : List OpenElement)
  (source : List Char) (fuel : Nat)

/-- What a run does with some fuel, wherever it starts. -/
def FragmentsOutcome : Prop :=
  ∀ opened before text p, Reached scripts first outer opened before p → source = before ++ text →
    3 * text.length + 3 ≤ fuel →
    Meets (readFragments scripts fuel (opened.head?.map OpenElement.endTag)) (p.state text)
      (fun fragments s => ∃ items rest q, text = items ++ rest ∧ s = q.state rest ∧
        Items scripts p items fragments q ∧ Ends (opened.head?.map OpenElement.endTag) rest)
      (Fails scripts first outer source opened)

/-- What reading one item does with some fuel, wherever a run goes on. -/
def FragmentOutcome : Prop :=
  ∀ opened before text p, Reached scripts first outer opened before p → source = before ++ text →
    3 * text.length + 2 ≤ fuel → ¬ Ends (opened.head?.map OpenElement.endTag) text →
    Meets (readFragment scripts fuel (opened.head?.map OpenElement.endTag)) (p.state text)
      (fun fragment s => TakesItem scripts p text fragment.toList s)
      (Fails scripts first outer source opened)

/-- What reading an element does with some fuel, wherever one starts. -/
def ElementOutcome : Prop :=
  ∀ opened before name text p, Reached scripts first outer opened before p →
    source = before ++ text → 3 * text.length + 1 ≤ fuel → tagName? text = some name →
    ¬ scriptStart <+: text →
    Meets (readElement scripts fuel (String.ofList name)) (p.state text)
      (fun fragment s => TakesItem scripts p text [fragment] s)
      (Fails scripts first outer source opened)

end

section

variable {first p : Progress} {outer : List OpenElement} {source : List Char} {fuel : Nat}

theorem eat_tagStart (name text : List Char) :
    eat ("<" ++ String.ofList name) (p.state ('<' :: (name ++ text))) =
      .ok ((), (p.past ('<' :: name)).state text) := by
  have lead : ("<" ++ String.ofList name).toList = '<' :: name := by simp
  rw [← List.cons_append, ← lead]
  exact eat_append _

/-- A start tag is read from its name to its end. -/
theorem readStartTag_outcome {opened : List OpenElement} {before name text : List Char}
    (reached : Reached scripts first outer opened before p) (whole : source = before ++ text)
    (found : tagName? text = some name) (noScript : ¬ scriptStart <+: text) :
    Meets (readStartTag scripts (String.ofList name)) (p.state text)
      (fun attributes s => ∃ tag rest q, text = tag ++ rest ∧ s = q.state rest ∧ 2 < tag.length ∧
        StartTag scripts p tag (String.ofList name) attributes q)
      (Fails scripts first outer source opened) := by
  obtain ⟨text, rfl, named, longest⟩ := tagName?_eq_some_iff.1 found
  refine meets_bind.2 (meets_of_ok (eat_tagStart name text) ?_)
  refine meets_bind.2 (meets_of_ok rfl ?_)
  have inTag : ReachedTag scripts first outer opened (before ++ ('<' :: name ++ []))
      (p.past ('<' :: name)) := .tag reached named .nil
  rw [List.append_nil] at inTag
  have place : source = (before ++ '<' :: name) ++ text := by simp [whole]
  refine (readAttributes_outcome inTag place text.length.lt_succ_self).bind ?_
  rintro attributes s ⟨inner, text, q, rfl, rfl, attributed⟩
  refine meets_bind.2 (meets_eat_char '>' rfl ?_ fun absent => ?missing)
  case missing =>
    have place : source = (before ++ '<' :: name ++ inner) ++ ([] ++ text) := by simp [whole]
    exact (inTag.attributes attributed).missing place absent
  rintro rest rfl
  have length := List.length_pos_iff.2 named.ne_nil
  refine meets_of_ok rfl ⟨'<' :: (name ++ (inner ++ ['>'])), rest, _, by simp, rfl,
    by simp; omega, ?_⟩
  exact .tag named (longest.of_prefix (List.prefix_append inner _))
    (fun lead => noScript (lead.trans ⟨rest, by simp⟩)) attributed

theorem readElement_outcome (content : FragmentsOutcome scripts first outer source fuel) :
    ElementOutcome scripts first outer source (fuel + 1) := by
  intro opened before name text p reached whole enough found noScript
  refine .of_eq ?_ (readElement_succ fuel (String.ofList name))
  refine (readStartTag_outcome reached whole found noScript).bind ?_
  rintro attributes s ⟨tag, text, q, rfl, rfl, long, opening⟩
  have entered := reached.enter opening
  have place : source = (before ++ tag) ++ text := by simp [whole]
  have shorter : 3 * text.length + 3 ≤ fuel := by simp at enough; omega
  have inner := content _ _ text _ entered place shorter
  refine (meets_inside (inner.imp (fun _ _ read => read) fun _ fails => fails.noted)).bind ?_
  rintro children s ⟨items, text, r, rfl, rfl, children, -⟩
  refine meets_bind.2 (meets_inside (meets_eat ?_ fun absent => ?missing))
  case missing =>
    have place : source = (before ++ tag ++ items) ++ ([] ++ text) := by simp [whole]
    exact ((entered.items children).missing place absent).noted
  rintro rest rfl
  have nonempty : tag ≠ [] := List.length_pos_iff.1 (by omega)
  let endTag := OpenElement.endTag ⟨String.ofList name, p.offset⟩
  refine meets_of_ok rfl ⟨tag ++ (items ++ endTag.toList), rest, _, by simp [nonempty],
    by simp [endTag], rfl, fun more others r _ behind => ?_⟩
  have whole := Items.element opening children behind
  simpa using whole

theorem readFragment_outcome (element : ElementOutcome scripts first outer source fuel) :
    FragmentOutcome scripts first outer source (fuel + 1) := by
  intro opened before text p reached whole enough goesOn
  by_cases isScript : scriptStart <+: text
  · refine .of_eq ?_ (readFragment_script fuel isScript)
    obtain ⟨text, rfl⟩ := isScript
    exact (readScript_outcome reached whole).bind fun _ _ taken => meets_of_ok rfl taken
  cases found : tagName? text with
  | some name =>
    refine .of_eq ?_ (readFragment_element fuel isScript found)
    have outcome := element opened before name text p reached whole (by omega) found isScript
    exact outcome.bind fun _ _ taken => meets_of_ok rfl taken
  | none =>
    cases text with
    | nil => exact absurd (.inl rfl) goesOn
    | cons c text =>
      by_cases isText : isTextChar c = true
      · exact (readText_outcome isText _).of_eq (readFragment_text fuel isText)
      obtain rfl | rfl : c = '<' ∨ c = '{' := by
        simpa [isTextChar, or_iff_not_imp_left] using isText
      · refine .of_eq ?_ (readFragment_unreadable fuel found)
        exact failUnreadable_outcome rfl reached whole (tagName?_eq_none found)
          (fun literal mem lead => goesOn (.inr ⟨literal, mem, lead⟩)) _
      · refine .of_eq ?_ (readFragment_expression fuel)
        exact (readExpression_outcome reached whole).bind fun _ _ taken => meets_of_ok rfl taken

theorem readFragments_outcome_succ (fragment : FragmentOutcome scripts first outer source fuel)
    (behind : FragmentsOutcome scripts first outer source fuel) :
    FragmentsOutcome scripts first outer source (fuel + 1) := by
  intro opened before text p reached whole enough
  by_cases ends : Ends (opened.head?.map OpenElement.endTag) text
  · exact meets_of_ok (readFragments_end fuel ends) ⟨[], text, p, rfl, rfl, .nil, ends⟩
  refine .of_eq ?_ (readFragments_step fuel ends)
  refine (fragment opened before text p reached whole (by omega) ends).bind ?_
  rintro fragment s ⟨item, rest, q, some, rfl, rfl, goesOn⟩
  have taken : Items scripts p item fragment.toList q := by
    simpa using goesOn [] [] q List.nil_prefix .nil
  have shorter := enough_behind some enough
  refine (behind opened _ rest q (reached.items taken) (by simp [whole]) shorter).bind ?_
  rintro others s ⟨items, rest, r, rfl, rfl, further, ends⟩
  exact meets_of_ok rfl ⟨item ++ items, rest, r, by simp, rfl,
    goesOn items others r (List.prefix_append items rest) further, ends⟩

/-- What the three functions do with any fuel. -/
theorem reading_outcomes (scripts : ScriptReader) (first : Progress) (outer : List OpenElement)
    (source : List Char) (fuel : Nat) :
    FragmentsOutcome scripts first outer source fuel ∧
      FragmentOutcome scripts first outer source fuel ∧
      ElementOutcome scripts first outer source fuel := by
  induction fuel with
  | zero =>
    refine ⟨?_, ?_, ?_⟩
    · intro opened before text p _ _ enough
      omega
    · intro opened before text p _ _ enough
      omega
    · intro opened before name text p _ _ enough
      omega
  | succ fuel ih =>
    obtain ⟨fragments, fragment, element⟩ := ih
    exact ⟨readFragments_outcome_succ fragment fragments, readFragment_outcome element,
      readElement_outcome fragments⟩

end

/-! ## Items of the grammar are read -/

section

variable {p q : Progress} {text rest : List Char} {endTag : Option String} {fuel : Nat}

/-- Where a run of items may stop: at the end, or at the end tag of the element it is in. -/
def ClosedBy (endTag : Option String) (rest : List Char) : Prop :=
  (endTag = none ∧ rest = []) ∨
    ∃ element : OpenElement, endTag = some element.endTag ∧ element.endTag.toList <+: rest

theorem ClosedBy.ends (closed : ClosedBy endTag rest) : Ends endTag rest := by
  rcases closed with ⟨-, rfl⟩ | ⟨element, rfl, follows⟩
  · exact .inl rfl
  · exact .inr ⟨element.endTag, rfl, follows⟩

theorem ClosedBy.stops (closed : ClosedBy endTag rest) : Stops isTextChar rest := by
  rcases closed with ⟨-, rfl⟩ | ⟨element, -, behind, rfl⟩
  · simp [Stops]
  · simp [toList_endTag, Stops, isTextChar]

/-- A run does not stop before an item. -/
theorem ClosedBy.goesOn {fragments : List Fragment} (closed : ClosedBy endTag rest)
    (h : Items scripts p text fragments q) (some : text ≠ []) : ¬ Ends endTag (text ++ rest) := by
  rintro (none | ⟨literal, tagged, follows⟩)
  · exact some (List.append_eq_nil_iff.1 none).1
  · rcases closed with ⟨rfl, -⟩ | ⟨element, rfl, -⟩
    · cases tagged
    · obtain rfl : element.endTag = literal := Option.some.inj tagged
      exact h.not_endTag some rest element follows

theorem readFragments_item {s s' : ReaderState} (fragment : Option Fragment)
    {fragments : List Fragment} (goesOn : ¬ Ends endTag text)
    (item : readFragment scripts fuel endTag (p.state text) = .ok (fragment, s))
    (others : readFragments scripts fuel endTag s = .ok (fragments, s')) :
    readFragments scripts (fuel + 1) endTag (p.state text) =
      .ok (fragment.toList ++ fragments, s') := by
  rw [readFragments_step fuel goesOn, bind_ok item, bind_ok others]
  rfl

/-- An element is read where a start tag of the grammar stands. -/
theorem StartTag.found {tag : List Char} {name : String} {attributes : List Attribute}
    (opening : StartTag scripts p tag name attributes q) (rest : List Char) :
    2 < tag.length ∧ ¬ scriptStart <+: tag ++ rest ∧
      ∃ letters, name = String.ofList letters ∧ tagName? (tag ++ rest) = some letters := by
  obtain ⟨named, longest, noScript, -⟩ := opening
  rename_i letters between
  have length := List.length_pos_iff.2 named.ne_nil
  refine ⟨by simp; omega, fun lead => noScript (prefix_scriptStart (by simp) lead), letters, rfl,
    ?_⟩
  refine tagName?_eq_some_iff.2 ⟨between ++ '>' :: rest, by simp, named, ?_⟩
  cases between with
  | nil => simp [Stops, isTagChar]
  | cons c between => exact longest

theorem readStartTag_eq {tag : List Char} {name : String} {attributes : List Attribute}
    (opening : StartTag scripts p tag name attributes q) (rest : List Char) :
    readStartTag scripts name (p.state (tag ++ rest)) = .ok (attributes, q.state rest) := by
  obtain ⟨-, -, -, attributed⟩ := opening
  rename_i q name inner
  have entire : '<' :: (name ++ (inner ++ ['>'])) ++ rest =
      '<' :: (name ++ (inner ++ '>' :: rest)) := by simp
  have enough : inner.length < (inner ++ '>' :: rest).length + 1 := by
    rw [List.length_append]
    omega
  rw [entire, readStartTag, bind_ok (eat_tagStart name _), get_bind, Progress.rest_state,
    bind_ok (readAttributes_of_attributes attributed enough rest), bind_ok (eat_cons rfl)]
  rfl

/-- An element is read whose content is. -/
theorem readElement_eq {r : Progress} {tag inner : List Char} {name : String}
    {attributes : List Attribute} {children : List Fragment} {endTag : String}
    (tagged : endTag = OpenElement.endTag ⟨name, p.offset⟩)
    (opening : StartTag scripts p tag name attributes q)
    (content : readFragments scripts fuel (some endTag)
      (q.state (inner ++ (endTag.toList ++ rest))) =
        .ok (children, r.state (endTag.toList ++ rest))) :
    readElement scripts (fuel + 1) name (p.state (tag ++ (inner ++ (endTag.toList ++ rest)))) =
      .ok (.element name attributes children p.offset, (r.past endTag.toList).state rest) := by
  subst tagged
  rw [readElement_succ, bind_ok (readStartTag_eq opening _), readContent,
    bind_ok (inside_ok _ content), bind_ok (inside_ok _ (eat_append _))]
  rfl

/-- A sequence of items is read as a whole. -/
theorem readFragments_of_items {fragments : List Fragment} (h : Items scripts p text fragments q)
    (closed : ClosedBy endTag rest) (enough : 3 * text.length + 3 ≤ fuel) :
    readFragments scripts fuel endTag (p.state (text ++ rest)) =
      .ok (fragments, q.state rest) := by
  induction h generalizing endTag rest fuel with
  | nil =>
    obtain ⟨fuel, rfl⟩ : ∃ n, fuel = n + 1 := ⟨fuel - 1, by omega⟩
    exact readFragments_end fuel closed.ends
  | @script p q code text program next fragments first accepted behind ih =>
    obtain ⟨fuel, rfl⟩ : ∃ n, fuel = n + 2 := ⟨fuel - 2, by omega⟩
    have goesOn := closed.goesOn (.script first accepted behind) (by simp [scriptStart_eq])
    have shorter : 3 * text.length + 3 ≤ fuel + 1 := by simp [scriptStart_eq] at enough; omega
    simp only [List.append_assoc] at goesOn ⊢
    refine readFragments_item none goesOn ?_ (ih closed shorter)
    rw [readFragment_script fuel (List.prefix_append _ _), bind_ok (readScript_eq first accepted)]
    rfl
  | @element p p₁ p₂ q tag inner text name attributes children fragments opening content behind
      ihContent ihBehind =>
    obtain ⟨fuel, rfl⟩ : ∃ n, fuel = n + 3 := ⟨fuel - 3, by omega⟩
    let endTag := OpenElement.endTag ⟨name, p.offset⟩
    obtain ⟨long, noScript, letters, rfl, found⟩ :=
      opening.found (inner ++ (endTag.toList ++ (text ++ rest)))
    have nonempty : tag ≠ [] := List.length_pos_iff.1 (by omega)
    have goesOn := closed.goesOn (.element opening content behind) (by simp [nonempty])
    simp only [List.length_append] at enough
    have inside : readFragments scripts fuel (some endTag)
        (p₁.state (inner ++ (endTag.toList ++ (text ++ rest)))) =
          .ok (children, p₂.state (endTag.toList ++ (text ++ rest))) :=
      ihContent (.inr ⟨_, rfl, List.prefix_append _ _⟩) (by omega)
    have shorter : 3 * text.length + 3 ≤ fuel + 2 := by omega
    simp only [List.append_assoc] at goesOn ⊢
    refine readFragments_item (some _) goesOn ?_ (ihBehind closed shorter)
    rw [readFragment_element (fuel + 1) noScript found, bind_ok (readElement_eq rfl opening inside)]
    rfl
  | @interpolation p q code text value next fragments balanced accepted behind ih =>
    obtain ⟨fuel, rfl⟩ : ∃ n, fuel = n + 2 := ⟨fuel - 2, by omega⟩
    have goesOn := closed.goesOn (.interpolation balanced accepted behind) (by simp)
    have shorter : 3 * text.length + 3 ≤ fuel + 1 := by simp at enough; omega
    simp only [List.cons_append, List.append_assoc] at goesOn ⊢
    refine readFragments_item (some (.expression value)) goesOn ?_ (ih closed shorter)
    rw [readFragment_expression fuel, bind_ok (readExpression_eq balanced accepted)]
    rfl
  | @text p q run text fragments some fits longest behind ih =>
    obtain ⟨fuel, rfl⟩ : ∃ n, fuel = n + 2 := ⟨fuel - 2, by omega⟩
    have goesOn := closed.goesOn (.text some fits longest behind) (by simp [some])
    have shorter := enough_behind some enough
    -- behind the last item of an element comes its end tag, which no run of text takes in
    have stops : Stops isTextChar (text ++ rest) := by
      cases text with
      | nil => exact closed.stops
      | cons c text => exact longest
    obtain ⟨fragment, stands, read⟩ := readText_eq (p := p) fits stops
    obtain ⟨c, run, rfl⟩ := List.exists_cons_of_ne_nil some
    rw [List.append_assoc] at goesOn ⊢
    rw [← stands]
    refine readFragments_item fragment goesOn ?_ (ih closed shorter)
    rw [List.cons_append, readFragment_text fuel (fits c List.mem_cons_self)]
    exact read

end

/-! ## Components -/

section

variable {source : List Char} {component : Component} {failure : Failure}

/-- What a run over a whole source does. -/
theorem readFragments_start (scripts : ScriptReader) (source : List Char) {fuel : Nat}
    (enough : 3 * source.length + 3 ≤ fuel) :
    Meets (readFragments scripts fuel none) (Progress.start.state source)
      (fun fragments s => ∃ q, s = q.state [] ∧ Items scripts .start source fragments q)
      (Fails scripts .start [] source []) := by
  have outcome := (reading_outcomes scripts .start [] source fuel).1 [] [] source .start .start rfl
    enough
  refine outcome.imp ?_ fun _ fails => fails
  rintro fragments s ⟨items, rest, q, rfl, rfl, whole, rfl | ⟨literal, tagged, -⟩⟩
  · rw [List.append_nil]
    exact ⟨q, rfl, whole⟩
  · cases tagged

theorem items_of_readComponent (read : readComponent scripts source = .ok component) :
    ∃ q, Items scripts .start source component.html q ∧ component.script = q.script.getD [] := by
  rw [readComponent] at read
  split at read
  next html s ended =>
    obtain rfl := Except.ok.inj read
    obtain ⟨q, rfl, whole⟩ := (readFragments_start scripts source (Nat.le_refl _)).of_ok ended
    exact ⟨q, whole, rfl⟩
  next => cases read

theorem fails_of_readComponent (read : readComponent scripts source = .error failure) :
    Fails scripts .start [] source [] failure := by
  rw [readComponent] at read
  split at read
  next => cases read
  next found ended =>
    obtain rfl := Except.error.inj read
    exact (readFragments_start scripts source (Nat.le_refl _)).of_error ended

theorem readComponent_of_items {q : Progress} (items : Items scripts .start source component.html q)
    (script : component.script = q.script.getD []) :
    readComponent scripts source = .ok component := by
  have read := readFragments_of_items items (.inl ⟨rfl, rfl⟩) (Nat.le_refl _)
  rw [List.append_nil] at read
  have start : (⟨source, 0, 0, none⟩ : ReaderState) = Progress.start.state source := rfl
  rw [readComponent, start, read]
  obtain ⟨html, program⟩ := component
  obtain rfl : program = q.script.getD [] := script
  rfl

end

/-- A component is read if and only if its source is a sequence of items. Its fragments are then
those that the items stand for, and its script is that of the last script block. -/
theorem readComponent_eq_ok_iff (scripts : ScriptReader) (source : List Char)
    (component : Component) :
    readComponent scripts source = .ok component ↔
      ∃ q, Items scripts .start source component.html q ∧ component.script = q.script.getD [] := by
  constructor
  · exact items_of_readComponent
  · rintro ⟨q, items, script⟩
    exact readComponent_of_items items script

end ReactiveMarkup.Markup
