import Mathlib.Data.List.TakeWhile
import ReactiveMarkup.Proofs.MarkupGrammar

/-!
# Reading the parts of markup

Each part of the reader is described once, by what it does from any state on (`Meets`): it takes a
text of the grammar from the front and comes to the progress that the grammar gives, or it is stuck
in one of the ways that `Stuck` lists. Here are the literals, the embedded scripts and the
attributes; `MarkupParsing` puts the items together from them.
-/

namespace ReactiveMarkup.Markup

open Script (Expression Statement)

/-! ## Texts -/

/-- The characters of a class at the front of a text are those before the first other one. -/
theorem takeWhile_of_stops {condition : Char → Bool} {run rest : List Char}
    (fits : ∀ c ∈ run, condition c = true) (stops : Stops condition rest) :
    (run ++ rest).takeWhile condition = run ∧ (run ++ rest).dropWhile condition = rest := by
  rw [List.takeWhile_append_of_pos fits, List.dropWhile_append_of_pos fits]
  cases rest with
  | nil => simp
  | cons c rest => simp [stops c rfl]

theorem stops_dropWhile (condition : Char → Bool) (text : List Char) :
    Stops condition (text.dropWhile condition) := by
  intro c head
  have other := List.head?_dropWhile_not condition text
  rw [head] at other
  exact other

theorem Stops.of_prefix {condition : Char → Bool} {text rest : List Char}
    (stops : Stops condition rest) (lead : text <+: rest) : Stops condition text := by
  intro c head
  obtain ⟨after, rfl⟩ := lead
  exact stops c (by rw [List.head?_append, head]; rfl)

/-- A text starts with a longest run of characters of a class. -/
theorem exists_longest (condition : Char → Bool) (text : List Char) :
    ∃ run rest, text = run ++ rest ∧ (∀ c ∈ run, condition c = true) ∧ Stops condition rest :=
  ⟨text.takeWhile condition, text.dropWhile condition, List.takeWhile_append_dropWhile.symm,
    fun _ mem => List.mem_takeWhile_imp mem, stops_dropWhile condition text⟩

/-- A mark at the front of a text is its first occurrence. -/
theorem isFirst_nil (mark : List Char) : IsFirst mark [] := by
  intro before after eq
  have lengths := congrArg List.length eq
  simp only [List.length_append, List.nil_append] at lengths
  exact List.eq_nil_of_length_eq_zero (by omega)

theorem isFirst_cons_iff {mark text : List Char} {c : Char} :
    IsFirst mark (c :: text) ↔ ¬ mark <+: c :: (text ++ mark) ∧ IsFirst mark text := by
  constructor
  · intro first
    refine ⟨?_, fun before after eq => ?_⟩
    · rintro ⟨after, eq⟩
      exact absurd (first [] after eq) (List.cons_ne_nil c text).symm
    · have longer : c :: before ++ mark ++ after = c :: text ++ mark := by
        rw [List.cons_append, List.cons_append, eq, List.cons_append]
      exact (List.cons.inj (first (c :: before) after longer)).2
  · rintro ⟨notHere, first⟩ before after eq
    cases before with
    | nil => exact absurd ⟨after, eq⟩ notHere
    | cons d before =>
      obtain ⟨rfl, tails⟩ := List.cons.inj eq
      rw [first before after tails]

/-- What follows a mark does not matter for whether it occurs at the front. -/
theorem prefix_cons_iff {mark text after : List Char} {c : Char} :
    mark <+: c :: (text ++ (mark ++ after)) ↔ mark <+: c :: (text ++ mark) := by
  rw [← List.append_assoc, ← List.cons_append]
  constructor
  · intro lead
    refine List.prefix_of_prefix_length_le lead (List.prefix_append _ after) ?_
    simp only [List.length_cons, List.length_append]
    omega
  · intro lead
    exact lead.trans (List.prefix_append _ after)

theorem stripLead?_eq_none_iff {lead text : List Char} :
    Text.stripLead? lead text = none ↔ ¬ lead <+: text := by
  constructor
  · rintro none ⟨rest, rfl⟩
    have some : Text.stripLead? lead (lead ++ rest) = some rest :=
      Text.stripLead?_eq_some_iff.2 rfl
    rw [none] at some
    cases some
  · intro absent
    cases found : Text.stripLead? lead text with
    | none => rfl
    | some rest => exact absurd ⟨rest, (Text.stripLead?_eq_some_iff.1 found).symm⟩ absent

/-- Splitting at a mark finds its first occurrence. -/
theorem splitAt?_eq_some_iff {mark text code after : List Char} :
    Text.splitAt? mark text = some (code, after) ↔
      text = code ++ (mark ++ after) ∧ IsFirst mark code := by
  induction text generalizing code with
  | nil =>
    rw [Text.splitAt?, Option.map_eq_some_iff]
    constructor
    · rintro ⟨rest, found, same⟩
      obtain ⟨rfl, rfl⟩ := Prod.mk.inj same
      have here := Text.stripLead?_eq_some_iff.1 found
      exact ⟨here, isFirst_nil mark⟩
    · rintro ⟨eq, -⟩
      obtain ⟨rfl, empty⟩ := List.append_eq_nil_iff.1 eq.symm
      exact ⟨after, Text.stripLead?_eq_some_iff.2 empty.symm, rfl⟩
  | cons c rest ih =>
    rw [Text.splitAt?]
    cases found : Text.stripLead? mark (c :: rest) with
    | some behind =>
      have here := Text.stripLead?_eq_some_iff.1 found
      simp only [Option.some.injEq, Prod.mk.injEq]
      constructor
      · rintro ⟨rfl, rfl⟩
        exact ⟨here, isFirst_nil mark⟩
      · rintro ⟨eq, first⟩
        cases code with
        | nil => exact ⟨rfl, List.append_cancel_left (here.symm.trans eq)⟩
        | cons d code =>
          obtain ⟨rfl, rfl⟩ := List.cons.inj eq
          have lead : mark <+: c :: (code ++ (mark ++ after)) := ⟨behind, here.symm⟩
          exact absurd (prefix_cons_iff.1 lead) (isFirst_cons_iff.1 first).1
    | none =>
      have absent := stripLead?_eq_none_iff.1 found
      simp only [Option.map_eq_some_iff, Prod.mk.injEq, Prod.exists]
      constructor
      · rintro ⟨before, behind, split, rfl, rfl⟩
        obtain ⟨rfl, first⟩ := ih.1 split
        exact ⟨rfl, isFirst_cons_iff.2 ⟨fun lead => absent (prefix_cons_iff.2 lead), first⟩⟩
      · rintro ⟨eq, first⟩
        cases code with
        | nil => exact absurd ⟨after, eq.symm⟩ absent
        | cons d code =>
          obtain ⟨rfl, rfl⟩ := List.cons.inj eq
          exact ⟨code, after, ih.2 ⟨rfl, (isFirst_cons_iff.1 first).2⟩, rfl, rfl⟩

/-! ## Readers -/

namespace Reader

variable {α β : Type} {reader : Reader α} {next : α → Reader β} {s s' : ReaderState} {a : α}
  {failure : Failure} {ok : α → ReaderState → Prop} {bad : Failure → Prop} {p : Progress}
  {text rest : List Char}

theorem bind_ok (h : reader s = .ok (a, s')) : (reader >>= next) s = next a s' := by
  show (reader s >>= fun (a, s) => next a s) = _
  rw [h]
  rfl

theorem bind_error (h : reader s = .error failure) : (reader >>= next) s = .error failure := by
  show (reader s >>= fun (a, s) => next a s) = _
  rw [h]
  rfl

theorem get_bind (next : ReaderState → Reader β) : (get >>= next) s = next s s := rfl

theorem eat_append (literal : String) :
    eat literal (p.state (literal.toList ++ rest)) =
      .ok ((), (p.past literal.toList).state rest) := by
  rw [eat, get_bind, Progress.state, Text.stripLead?_eq_some_iff.2 rfl]
  rfl

/-- A literal of one character. -/
theorem eat_cons {literal : String} {c : Char} (single : literal.toList = [c]) :
    eat literal (p.state (c :: rest)) = .ok ((), (p.past [c]).state rest) := by
  rw [← List.singleton_append, ← single]
  exact eat_append literal

theorem eat_error {literal : String} (absent : ¬ literal.toList <+: text) :
    eat literal (p.state text) = .error ⟨.expected literal, p.offset, []⟩ := by
  rw [eat, get_bind, Progress.state, stripLead?_eq_none_iff.2 absent]
  rfl

theorem follows_eq (literal : String) :
    follows literal (p.state text) = .ok (literal.toList.isPrefixOf text, p.state text) := rfl

theorem takeWhile_eq (condition : Char → Bool) :
    takeWhile condition (p.state text) =
      .ok (text.takeWhile condition,
        (p.past (text.takeWhile condition)).state (text.dropWhile condition)) := rfl

theorem endOffset_eq :
    endOffset (p.state text) = .ok ((p.past text).offset, p.state text) := rfl

/-- What a reader does from a state on: it succeeds as `ok` says or fails as `bad` says. -/
def Meets (reader : Reader α) (s : ReaderState) (ok : α → ReaderState → Prop)
    (bad : Failure → Prop) : Prop :=
  match reader s with
  | .ok (a, s') => ok a s'
  | .error failure => bad failure

theorem meets_of_ok (h : reader s = .ok (a, s')) (holds : ok a s') : Meets reader s ok bad := by
  simpa only [Meets, h] using holds

theorem meets_of_error (h : reader s = .error failure) (holds : bad failure) :
    Meets reader s ok bad := by
  simpa only [Meets, h] using holds

theorem Meets.of_ok (h : Meets reader s ok bad) (read : reader s = .ok (a, s')) : ok a s' := by
  simpa only [Meets, read] using h

theorem Meets.of_error (h : Meets reader s ok bad) (read : reader s = .error failure) :
    bad failure := by
  simpa only [Meets, read] using h

theorem meets_bind {ok : β → ReaderState → Prop} :
    Meets (reader >>= next) s ok bad ↔
      Meets reader s (fun a s' => Meets (next a) s' ok bad) bad := by
  unfold Meets
  cases h : reader s with
  | ok result => rw [bind_ok h]
  | error failure => rw [bind_error h]

theorem Meets.imp {ok' : α → ReaderState → Prop} {bad' : Failure → Prop}
    (h : Meets reader s ok bad) (succeeds : ∀ a s', ok a s' → ok' a s')
    (fails : ∀ failure, bad failure → bad' failure) : Meets reader s ok' bad' := by
  unfold Meets at h ⊢
  cases result : reader s with
  | ok result =>
    rw [result] at h
    exact succeeds _ _ h
  | error failure =>
    rw [result] at h
    exact fails _ h

/-- A reader that meets what the rest starts from. -/
theorem Meets.bind {ok' : β → ReaderState → Prop} (h : Meets reader s ok bad)
    (further : ∀ a s', ok a s' → Meets (next a) s' ok' bad) :
    Meets (reader >>= next) s ok' bad :=
  meets_bind.2 (h.imp further fun _ fails => fails)

theorem Meets.of_eq {other : Reader α} (h : Meets other s' ok bad) (same : reader s = other s') :
    Meets reader s ok bad := by
  unfold Meets
  rw [same]
  exact h

theorem meets_eat {literal : String} {ok : Unit → ReaderState → Prop}
    (taken : ∀ rest, text = literal.toList ++ rest →
      ok () ((p.past literal.toList).state rest))
    (absent : ¬ literal.toList <+: text → bad ⟨.expected literal, p.offset, []⟩) :
    Meets (eat literal) (p.state text) ok bad := by
  by_cases lead : literal.toList <+: text
  · obtain ⟨rest, rfl⟩ := lead
    exact meets_of_ok (eat_append literal) (taken rest rfl)
  · exact meets_of_error (eat_error lead) (absent lead)

theorem meets_eat_char {literal : String} (c : Char) (single : literal.toList = [c])
    {ok : Unit → ReaderState → Prop}
    (taken : ∀ rest, text = c :: rest → ok () ((p.past [c]).state rest))
    (absent : ¬ literal.toList <+: text → bad ⟨.expected literal, p.offset, []⟩) :
    Meets (eat literal) (p.state text) ok bad := by
  refine meets_eat (fun rest whole => ?_) absent
  rw [single] at whole ⊢
  exact taken rest whole

/-- The failure that is noted for an open element. -/
def noted (element : OpenElement) (failure : Failure) : Failure :=
  if failure.fault = .expected element.endTag then
    { failure with unclosed := failure.unclosed ++ [element] }
  else failure

theorem fault_noted (element : OpenElement) (failure : Failure) :
    (noted element failure).fault = failure.fault := by
  unfold noted
  split <;> rfl

theorem offset_noted (element : OpenElement) (failure : Failure) :
    (noted element failure).offset = failure.offset := by
  unfold noted
  split <;> rfl

theorem unclosed_noted (element : OpenElement) (failure : Failure) :
    (noted element failure).unclosed = failure.unclosed ++
      [element].filter fun element => failure.fault = .expected element.endTag := by
  by_cases missing : failure.fault = .expected element.endTag
  · simp [noted, missing]
  · simp [noted, missing]

theorem inside_ok (element : OpenElement) (h : reader s = .ok (a, s')) :
    inside element reader s = .ok (a, s') := by
  rw [inside, h]

theorem meets_inside {element : OpenElement}
    (h : Meets reader s ok fun failure => bad (noted element failure)) :
    Meets (inside element reader) s ok bad := by
  unfold Meets at h
  cases result : reader s with
  | ok result =>
    rw [result] at h
    exact meets_of_ok (inside_ok element result) h
  | error failure =>
    rw [result] at h
    have fails : inside element reader s = .error (noted element failure) := by
      rw [inside, result, noted]
      by_cases missing : failure.fault = .expected element.endTag
      · rw [if_pos missing]
        exact if_pos missing
      · rw [if_neg missing]
        exact if_neg missing
    exact meets_of_error fails h

end Reader

open Reader

variable {scripts : ScriptReader}

/-! ## Embedded scripts -/

theorem readInterpolated_eq {p : Progress} {code rest : List Char} {value : Expression}
    {next : Nat} (balanced : Balanced .code code)
    (accepted : scripts.expression code p.nextId = some (value, next)) :
    readInterpolated scripts (p.state (code ++ '}' :: rest)) =
      .ok (value, ((p.past code).numbered next).state ('}' :: rest)) := by
  have split : splitBraced (code ++ '}' :: rest) = some (code, rest) :=
    splitBraced_eq_some_iff.2 ⟨rfl, balanced⟩
  rw [readInterpolated, get_bind]
  simp only [Progress.state, split, accepted]
  rw [List.drop_left]
  rfl

theorem readInterpolated_rejected {p : Progress} {code rest : List Char}
    (balanced : Balanced .code code) (rejected : scripts.expression code p.nextId = none) :
    readInterpolated scripts (p.state (code ++ '}' :: rest)) =
      .error ⟨.rejected .expression, p.offset, []⟩ := by
  have split : splitBraced (code ++ '}' :: rest) = some (code, rest) :=
    splitBraced_eq_some_iff.2 ⟨rfl, balanced⟩
  rw [readInterpolated, get_bind]
  simp only [Progress.state, split, rejected]
  rfl

/-- An expression is read up to the brace that matches the one before it. -/
theorem meets_readInterpolated {p : Progress} {text : List Char}
    {ok : Expression → ReaderState → Prop} {bad : Failure → Prop}
    (accepted : ∀ code rest value next, text = code ++ '}' :: rest → Balanced .code code →
      scripts.expression code p.nextId = some (value, next) →
      ok value (((p.past code).numbered next).state ('}' :: rest)))
    (rejected : ∀ code rest, text = code ++ '}' :: rest → Balanced .code code →
      scripts.expression code p.nextId = none →
      bad ⟨.rejected .expression, p.offset, []⟩)
    (unbalanced : bad ⟨.expected "\x7d", (p.past text).offset, []⟩) :
    Meets (readInterpolated scripts) (p.state text) ok bad := by
  cases split : splitBraced text with
  | none =>
    refine meets_of_error ?_ unbalanced
    rw [readInterpolated, get_bind]
    simp only [Progress.state, split]
    rfl
  | some result =>
    obtain ⟨code, rest⟩ := result
    obtain ⟨rfl, balanced⟩ := splitBraced_eq_some_iff.1 split
    cases read : scripts.expression code p.nextId with
    | none =>
      exact meets_of_error (readInterpolated_rejected balanced read)
        (rejected code rest rfl balanced read)
    | some result =>
      obtain ⟨value, next⟩ := result
      exact meets_of_ok (readInterpolated_eq balanced read)
        (accepted code rest value next rfl balanced read)

/-! ## Attributes -/

section

variable {p : Progress}

theorem readAttribute_eq {name code rest : List Char} {value : Expression} {next : Nat}
    (named : name ≠ []) (fits : ∀ c ∈ name, isAttributeChar c = true)
    (balanced : Balanced .code code)
    (accepted : scripts.expression code p.nextId = some (value, next)) :
    readAttribute scripts (p.state (name ++ '=' :: '{' :: (code ++ '}' :: rest))) =
      .ok (⟨String.ofList name, value⟩,
        ((p.past (name ++ '=' :: '{' :: (code ++ ['}']))).numbered next).state rest) := by
  have stops : Stops isAttributeChar ('=' :: '{' :: (code ++ '}' :: rest)) := by
    simp [Stops, isAttributeChar]
  obtain ⟨taken, dropped⟩ := takeWhile_of_stops fits stops
  rw [readAttribute, get_bind, bind_ok (takeWhile_eq isAttributeChar), taken, dropped,
    if_neg (by simpa using named), bind_ok (eat_cons rfl), bind_ok (eat_cons rfl),
    bind_ok (readInterpolated_eq (p := ((p.past name).past ['=']).past ['{']) balanced accepted),
    bind_ok (eat_cons rfl)]
  simp only [Progress.past_numbered, Progress.past_past, List.append_assoc, List.singleton_append]
  rfl

/-- Neither white space nor the end of a start tag can stand in the name of an attribute. -/
theorem attributeChar_ne {c : Char} (fits : isAttributeChar c = true) :
    ¬ Text.isBlank c = true ∧ c ≠ '>' := by
  rw [isAttributeChar, Bool.and_eq_true] at fits
  refine ⟨by simpa using fits.1, ?_⟩
  rintro rfl
  exact absurd fits.2 (by decide)

/-- The attributes behind white space. -/
def moreAttributes (scripts : ScriptReader) (fuel : Nat) : Reader (List Attribute) := do
  if (← get).rest.isEmpty || (← follows ">") then return []
  else
    let first ← readAttribute scripts
    return first :: (← readAttributes scripts fuel)

theorem readAttributes_succ (fuel : Nat) (text : List Char) :
    readAttributes scripts (fuel + 1) (p.state text) =
      moreAttributes scripts fuel
        ((p.past (text.takeWhile Text.isBlank)).state (text.dropWhile Text.isBlank)) := rfl

theorem readAttributes_blank {c : Char} (isBlank : Text.isBlank c = true) (fuel : Nat)
    (rest : List Char) :
    readAttributes scripts (fuel + 1) (p.state (c :: rest)) =
      readAttributes scripts (fuel + 1) ((p.past [c]).state rest) := by
  rw [readAttributes_succ, readAttributes_succ, List.takeWhile_cons_of_pos isBlank,
    List.dropWhile_cons_of_pos isBlank, Progress.past_past, List.singleton_append]

theorem moreAttributes_end (fuel : Nat) {text : List Char}
    (ends : text = [] ∨ ">".toList <+: text) :
    moreAttributes scripts fuel (p.state text) = .ok ([], p.state text) := by
  have test : (text.isEmpty || ">".toList.isPrefixOf text) = true := by
    simpa using ends
  rw [moreAttributes, get_bind, bind_ok (follows_eq ">"), Progress.rest_state, if_pos test]
  rfl

theorem moreAttributes_step (fuel : Nat) {text : List Char}
    (goes_on : ¬ (text = [] ∨ ">".toList <+: text)) :
    moreAttributes scripts fuel (p.state text) =
      (readAttribute scripts >>= fun first =>
        readAttributes scripts fuel >>= fun others => pure (first :: others)) (p.state text) := by
  have test : ¬ (text.isEmpty || ">".toList.isPrefixOf text) = true := by
    simpa using goes_on
  rw [moreAttributes, get_bind, bind_ok (follows_eq ">"), Progress.rest_state, if_neg test]

/-- Attributes of the grammar are read up to the end of the start tag. -/
theorem readAttributes_of_attributes {q : Progress} {text : List Char}
    {attributes : List Attribute} (h : Attributes scripts p text attributes q) {fuel : Nat}
    (enough : text.length < fuel) (rest : List Char) :
    readAttributes scripts fuel (p.state (text ++ '>' :: rest)) =
      .ok (attributes, q.state ('>' :: rest)) := by
  obtain ⟨fuel, rfl⟩ : ∃ n, fuel = n + 1 := ⟨fuel - 1, by omega⟩
  induction h generalizing fuel with
  | nil =>
    rw [List.nil_append, readAttributes_succ]
    exact moreAttributes_end fuel (.inr ⟨rest, rfl⟩)
  | blank isBlank _ ih =>
    rw [List.cons_append, readAttributes_blank isBlank]
    exact ih fuel (by simp at enough; omega)
  | @entry p q name code text value next attributes named fits balanced accepted _ ih =>
    have fuelled : ∃ n, fuel = n + 1 := ⟨fuel - 1, by simp at enough; omega⟩
    obtain ⟨fuel, rfl⟩ := fuelled
    have behind := ih fuel (by simp at enough; omega)
    have entire : name ++ '=' :: '{' :: (code ++ '}' :: text) ++ '>' :: rest =
        name ++ '=' :: '{' :: (code ++ '}' :: (text ++ '>' :: rest)) := by simp
    rw [entire]
    obtain ⟨c, letters, rfl⟩ := List.exists_cons_of_ne_nil named
    obtain ⟨notBlank, notEnd⟩ := attributeChar_ne (fits c List.mem_cons_self)
    rw [readAttributes_succ, List.cons_append, List.takeWhile_cons_of_neg notBlank,
      List.dropWhile_cons_of_neg notBlank, Progress.past_nil, moreAttributes_step]
    · rw [← List.cons_append, bind_ok (readAttribute_eq named fits balanced accepted),
        bind_ok behind]
      rfl
    · simpa using notEnd.symm

end

/-! ## Outcomes of the parts -/

section

variable {first p : Progress} {outer opened : List OpenElement} {source before text : List Char}

/-- A failure inside some open elements: further elements may be open where it arose, and it has
been noted for those of them whose end tag is missing. -/
def Fails (scripts : ScriptReader) (first : Progress) (outer : List OpenElement)
    (source : List Char) (opened : List OpenElement) (failure : Failure) : Prop :=
  ∃ inner, Stuck scripts first outer source (inner ++ opened) failure.fault failure.offset ∧
    failure.unclosed = inner.filter fun element => failure.fault = .expected element.endTag

theorem Stuck.fails {fault : Fault} {offset : Nat}
    (stuck : Stuck scripts first outer source opened fault offset) :
    Fails scripts first outer source opened ⟨fault, offset, []⟩ :=
  ⟨[], stuck, rfl⟩

/-- A failure inside an element is one outside of it once it has been noted for the element. -/
theorem Fails.noted {element : OpenElement} {failure : Failure}
    (fails : Fails scripts first outer source (element :: opened) failure) :
    Fails scripts first outer source opened (noted element failure) := by
  obtain ⟨inner, stuck, unclosed⟩ := fails
  refine ⟨inner ++ [element], ?_, ?_⟩
  · rw [fault_noted, offset_noted, List.append_assoc, List.singleton_append]
    exact stuck
  · rw [fault_noted, List.filter_append, ← unclosed, unclosed_noted]

/-- A literal may be missing at what was reached or behind it. -/
theorem Reached.missing (reached : Reached scripts first outer opened before p) {literal : String}
    {lead rest : List Char} (whole : source = before ++ (lead ++ rest))
    (absent : ¬ literal.toList <+: rest) :
    Fails scripts first outer source opened ⟨.expected literal, (p.past lead).offset, []⟩ := by
  have place : source = (before ++ lead) ++ rest := by rw [whole, List.append_assoc]
  have stuck : Stuck scripts first outer source opened (.expected literal) _ :=
    .missing reached (List.prefix_append before lead) place absent
  have offset : (p.past lead).offset = (first.past (before ++ lead)).offset := by
    simp [reached.offset, Nat.add_assoc]
  rw [offset]
  exact stuck.fails

theorem ReachedTag.missing (reached : ReachedTag scripts first outer opened before p)
    {literal : String} {lead rest : List Char} (whole : source = before ++ (lead ++ rest))
    (absent : ¬ literal.toList <+: rest) :
    Fails scripts first outer source opened ⟨.expected literal, (p.past lead).offset, []⟩ := by
  obtain ⟨reached, -, attributed⟩ := reached
  rename_i before name inner p₀ _
  have entire : source = before ++ (('<' :: name ++ inner ++ lead) ++ rest) := by
    rw [whole]
    simp
  have offset : (p.past lead).offset = (p₀.past ('<' :: name ++ inner ++ lead)).offset := by
    simp [attributed.offset]
    omega
  have fails := reached.missing entire absent
  rwa [← offset] at fails

/-- An attribute is read, or what stands there is none. -/
theorem readAttribute_outcome (reached : ReachedTag scripts first outer opened before p)
    (whole : source = before ++ text) (goes_on : ¬ (text = [] ∨ ">".toList <+: text)) :
    Meets (readAttribute scripts) (p.state text)
      (fun a s => ∃ consumed rest q, text = consumed ++ rest ∧ consumed ≠ [] ∧ s = q.state rest ∧
        Attributes scripts p consumed [a] q)
      (Fails scripts first outer source opened) := by
  -- the name is all that can be one
  obtain ⟨name, more, rfl, fits, longest⟩ := exists_longest isAttributeChar text
  obtain ⟨taken, dropped⟩ := takeWhile_of_stops fits longest
  refine meets_bind.2 (meets_of_ok rfl ?_)
  refine meets_bind.2 (meets_of_ok (takeWhile_eq isAttributeChar) ?_)
  rw [taken, dropped]
  by_cases named : name = []
  · subst named
    refine meets_of_error rfl ?_
    have place : source = before ++ ([] ++ more) := whole
    exact reached.missing place fun lead => goes_on (.inr lead)
  rw [if_neg (by simpa using named)]
  refine meets_bind.2 (meets_eat_char '=' rfl ?_ fun absent => reached.missing whole absent)
  rintro more rfl
  refine meets_bind.2 (meets_eat_char '{' rfl ?_ fun absent => ?missing)
  case missing =>
    have place : source = before ++ ((name ++ ['=']) ++ more) := by simp [whole]
    rw [Progress.past_past]
    exact reached.missing place absent
  rintro more rfl
  rw [Progress.past_past, Progress.past_past, List.singleton_append]
  refine meets_bind.2 (meets_readInterpolated ?accepted ?rejected ?unbalanced)
  case rejected =>
    rintro code rest rfl balanced rejected
    exact (Stuck.entry reached named fits whole balanced rejected).fails
  case unbalanced =>
    have place : source = before ++ ((name ++ ['=', '{'] ++ more) ++ []) := by simp [whole]
    rw [Progress.past_past]
    exact reached.missing place (by simp)
  case accepted =>
    rintro code rest value next rfl balanced accepted
    refine meets_bind.2 (meets_of_ok (eat_cons rfl) ?_)
    refine meets_of_ok rfl ⟨name ++ '=' :: '{' :: (code ++ ['}']), rest, _, by simp, by simp,
      rfl, ?_⟩
    have entry := Attributes.entry (p := p) named fits balanced accepted .nil
    simpa [Progress.past_numbered] using entry

theorem readAttributes_outcome {fuel : Nat}
    (reached : ReachedTag scripts first outer opened before p) (whole : source = before ++ text)
    (enough : text.length < fuel) :
    Meets (readAttributes scripts fuel) (p.state text)
      (fun attributes s => ∃ consumed rest q, text = consumed ++ rest ∧ s = q.state rest ∧
        Attributes scripts p consumed attributes q)
      (Fails scripts first outer source opened) := by
  induction fuel generalizing before text p with
  | zero => omega
  | succ fuel ih =>
    obtain ⟨blank, more, rfl, isBlank, longest⟩ := exists_longest Text.isBlank text
    obtain ⟨taken, dropped⟩ := takeWhile_of_stops isBlank longest
    have skipped : Attributes scripts p blank [] (p.past blank) := .ofBlank isBlank
    refine .of_eq ?_ (readAttributes_succ fuel (blank ++ more))
    rw [taken, dropped]
    -- blanks belong to the attributes read so far, so that the reader is stuck behind them
    by_cases ends : more = [] ∨ ">".toList <+: more
    · exact meets_of_ok (moreAttributes_end fuel ends)
        ⟨blank, more, p.past blank, rfl, rfl, skipped⟩
    refine .of_eq ?_ (moreAttributes_step fuel ends)
    have place : source = (before ++ blank) ++ more := by simp [whole]
    have reached := reached.attributes skipped
    refine (readAttribute_outcome reached place ends).bind ?_
    rintro a s ⟨entry, rest, q, rfl, some, rfl, attributed⟩
    have shorter : rest.length < fuel := by
      have := List.length_pos_iff.2 some
      simp only [List.length_append] at enough
      omega
    have behind := ih (reached.attributes attributed) (by simp [whole]) shorter
    refine behind.bind ?_
    rintro others s ⟨consumed, rest, r, rfl, rfl, further⟩
    refine meets_of_ok rfl ⟨blank ++ (entry ++ consumed), rest, r, by simp, rfl, ?_⟩
    exact skipped.append (attributed.append further)

end

end ReactiveMarkup.Markup
