import ReactiveMarkup.Markup.Reader
import ReactiveMarkup.Proofs.BalancedBraces

/-!
# The grammar of markup

Markup is a sequence of items: script blocks, elements, interpolations and runs of text. `Items`
relates a text to the fragments that it stands for, and `Progress` says what reading has come to:
the offset, the next free node id and the script of the last script block. The rules mention the
reader only through its classes of characters, and they take whatever the reader of embedded scripts
accepts.

`Reached` describes how far a reading may get: whole items have been read, and some elements have
been entered but not left. `Stuck` says what may be wrong there.
-/

namespace ReactiveMarkup.Markup

open Script (Expression Statement)

/-! ## Progress -/

/-- What reading has come to, apart from the text that is left. -/
structure Progress where
  /-- How many bytes have been read. -/
  offset : Nat
  /-- The next free node id. -/
  nextId : Nat
  /-- The script of the last script block. -/
  script : Option (List Statement)

namespace Progress

/-- Nothing has been read. -/
def start : Progress := ⟨0, 0, none⟩

/-- A text has been read. -/
def past (p : Progress) (text : List Char) : Progress :=
  { p with offset := p.offset + Text.byteSize text }

/-- Node ids have been given out. -/
def numbered (p : Progress) (next : Nat) : Progress := { p with nextId := next }

/-- A script block has been read. -/
def scripted (p : Progress) (program : List Statement) (next : Nat) : Progress :=
  { p with nextId := next, script := some program }

/-- The state of a reader with this progress that has some text left. -/
def state (p : Progress) (rest : List Char) : ReaderState := ⟨rest, p.offset, p.nextId, p.script⟩

@[simp] theorem rest_state (p : Progress) (rest : List Char) : (p.state rest).rest = rest := rfl

@[simp] theorem nextId_state (p : Progress) (rest : List Char) :
    (p.state rest).nextId = p.nextId := rfl

@[simp] theorem past_nil (p : Progress) : p.past [] = p := rfl

@[simp] theorem past_past (p : Progress) (text text' : List Char) :
    (p.past text).past text' = p.past (text ++ text') := by
  simp [past, Nat.add_assoc]

@[simp] theorem offset_past (p : Progress) (text : List Char) :
    (p.past text).offset = p.offset + Text.byteSize text := rfl

@[simp] theorem nextId_past (p : Progress) (text : List Char) : (p.past text).nextId = p.nextId :=
  rfl

@[simp] theorem offset_numbered (p : Progress) (next : Nat) :
    (p.numbered next).offset = p.offset := rfl

@[simp] theorem offset_scripted (p : Progress) (program : List Statement) (next : Nat) :
    (p.scripted program next).offset = p.offset := rfl

theorem past_numbered (p : Progress) (next : Nat) (text : List Char) :
    (p.numbered next).past text = (p.past text).numbered next := rfl

theorem past_scripted (p : Progress) (program : List Statement) (next : Nat) (text : List Char) :
    (p.scripted program next).past text = (p.past text).scripted program next := rfl

end Progress

/-! ## Items -/

/-- Whether a text does not go on with a character of a class. -/
def Stops (condition : Char → Bool) (rest : List Char) : Prop :=
  ∀ c, rest.head? = some c → condition c = false

/-- Whether a mark occurs first behind a text. -/
def IsFirst (mark text : List Char) : Prop :=
  ∀ before after, before ++ mark ++ after = text ++ mark → before = text

/-- Whether a text can name an element. -/
def IsTagName (name : List Char) : Prop :=
  ∃ c rest, name = c :: rest ∧ c.isAlpha = true ∧ ∀ d ∈ rest, isTagChar d = true

/-- What a script block starts with. -/
def scriptStart : List Char := "<script>".toList

/-- What a script block ends with. -/
def scriptEnd : List Char := "</script>".toList

/-- The end tag of an element. -/
def OpenElement.endTag (element : OpenElement) : String := "</" ++ element.name ++ ">"

section

variable (scripts : ScriptReader)

/-- The text between the name of an element and the end of its start tag: attributes with white
space around them. The name of an attribute is as long as can be, since an equals sign follows. -/
inductive Attributes : Progress → List Char → List Attribute → Progress → Prop
  | nil {p : Progress} : Attributes p [] [] p
  | blank {p q : Progress} {c : Char} {rest : List Char} {attributes : List Attribute}
      (isBlank : Text.isBlank c = true) (behind : Attributes (p.past [c]) rest attributes q) :
      Attributes p (c :: rest) attributes q
  | entry {p q : Progress} {name code rest : List Char} {value : Expression} {next : Nat}
      {attributes : List Attribute} (named : name ≠ [])
      (fits : ∀ c ∈ name, isAttributeChar c = true) (balanced : Balanced .code code)
      (accepted : scripts.expression code p.nextId = some (value, next))
      (behind : Attributes ((p.past (name ++ '=' :: '{' :: (code ++ ['}']))).numbered next) rest
        attributes q) :
      Attributes p (name ++ '=' :: '{' :: (code ++ '}' :: rest))
        (⟨String.ofList name, value⟩ :: attributes) q

/-- A start tag. Its name is as long as can be, and it is not that of a script block. -/
inductive StartTag : Progress → List Char → String → List Attribute → Progress → Prop
  | tag {p q : Progress} {name inner : List Char} {attributes : List Attribute}
      (named : IsTagName name) (longest : Stops isTagChar inner)
      (noScript : ¬ scriptStart <+: '<' :: (name ++ (inner ++ ['>'])))
      (attributed : Attributes scripts (p.past ('<' :: name)) inner attributes q) :
      StartTag p ('<' :: (name ++ (inner ++ ['>']))) (String.ofList name) attributes (q.past ['>'])

/-- The fragments that a run of text stands for: none if it is blank. -/
def textFragments (run : List Char) : List Fragment :=
  if Text.allBlank run then [] else [.text (String.ofList run)]

/-- A sequence of items, with the fragments that it stands for. A script block ends at the first end
tag for scripts, and a run of text is as long as can be. -/
inductive Items : Progress → List Char → List Fragment → Progress → Prop
  | nil {p : Progress} : Items p [] [] p
  | script {p q : Progress} {code rest : List Char} {program : List Statement} {next : Nat}
      {fragments : List Fragment} (first : IsFirst scriptEnd code)
      (accepted : scripts.program code p.nextId = some (program, next))
      (behind : Items ((p.past (scriptStart ++ (code ++ scriptEnd))).scripted program next) rest
        fragments q) :
      Items p (scriptStart ++ (code ++ (scriptEnd ++ rest))) fragments q
  | element {p p₁ p₂ q : Progress} {tag inner rest : List Char} {name : String}
      {attributes : List Attribute} {children fragments : List Fragment}
      (opening : StartTag scripts p tag name attributes p₁) (content : Items p₁ inner children p₂)
      (behind : Items (p₂.past (OpenElement.endTag ⟨name, p.offset⟩).toList) rest fragments q) :
      Items p (tag ++ (inner ++ ((OpenElement.endTag ⟨name, p.offset⟩).toList ++ rest)))
        (.element name attributes children p.offset :: fragments) q
  | interpolation {p q : Progress} {code rest : List Char} {value : Expression} {next : Nat}
      {fragments : List Fragment} (balanced : Balanced .code code)
      (accepted : scripts.expression code p.nextId = some (value, next))
      (behind : Items ((p.past ('{' :: (code ++ ['}']))).numbered next) rest fragments q) :
      Items p ('{' :: (code ++ '}' :: rest)) (.expression value :: fragments) q
  | text {p q : Progress} {run rest : List Char} {fragments : List Fragment} (some : run ≠ [])
      (fits : ∀ c ∈ run, isTextChar c = true) (longest : Stops isTextChar rest)
      (behind : Items (p.past run) rest fragments q) :
      Items p (run ++ rest) (textFragments run ++ fragments) q

/-- How far a reading may get that starts with some progress inside some elements: which elements
are open then, innermost first, what has been read, and with what progress. -/
inductive Reached (first : Progress) (outer : List OpenElement) :
    List OpenElement → List Char → Progress → Prop
  | start : Reached first outer outer [] first
  | items {opened : List OpenElement} {before text : List Char} {p q : Progress}
      {fragments : List Fragment} (reached : Reached first outer opened before p)
      (whole : Items scripts p text fragments q) : Reached first outer opened (before ++ text) q
  | enter {opened : List OpenElement} {before tag : List Char} {p q : Progress} {name : String}
      {attributes : List Attribute} (reached : Reached first outer opened before p)
      (opening : StartTag scripts p tag name attributes q) :
      Reached first outer (⟨name, p.offset⟩ :: opened) (before ++ tag) q

/-- How far a reading may get inside a start tag. -/
inductive ReachedTag (first : Progress) (outer : List OpenElement) :
    List OpenElement → List Char → Progress → Prop
  | tag {opened : List OpenElement} {before name inner : List Char} {p q : Progress}
      {attributes : List Attribute} (reached : Reached scripts first outer opened before p)
      (named : IsTagName name)
      (attributed : Attributes scripts (p.past ('<' :: name)) inner attributes q) :
      ReachedTag first outer opened (before ++ ('<' :: name ++ inner)) q

/-- How the reading of a source may fail with some elements open: the fault and its offset. -/
inductive Stuck (first : Progress) (outer : List OpenElement) (source : List Char)
    (opened : List OpenElement) : Fault → Nat → Prop
  /-- A literal does not stand where it must, at what was reached or behind it. -/
  | missing {before place rest : List Char} {p : Progress} {literal : String}
      (reached : Reached scripts first outer opened before p) (behind : before <+: place)
      (whole : source = place ++ rest) (absent : ¬ literal.toList <+: rest) :
      Stuck first outer source opened (.expected literal) (first.past place).offset
  /-- Nothing of markup starts where an item is looked for, outside of all elements. -/
  | stray {before rest : List Char} {p : Progress} (outside : opened = [])
      (reached : Reached scripts first outer opened before p)
      (whole : source = before ++ '<' :: rest) (noName : Stops Char.isAlpha rest) :
      Stuck first outer source opened (.stray '<') p.offset
  /-- The program of a script block is rejected. -/
  | program {before code rest : List Char} {p : Progress}
      (reached : Reached scripts first outer opened before p)
      (whole : source = before ++ (scriptStart ++ (code ++ (scriptEnd ++ rest))))
      (isFirst : IsFirst scriptEnd code) (rejected : scripts.program code p.nextId = none) :
      Stuck first outer source opened (.rejected .program) (p.past scriptStart).offset
  /-- An interpolated expression is rejected. -/
  | interpolation {before code rest : List Char} {p : Progress}
      (reached : Reached scripts first outer opened before p)
      (whole : source = before ++ '{' :: (code ++ '}' :: rest)) (balanced : Balanced .code code)
      (rejected : scripts.expression code p.nextId = none) :
      Stuck first outer source opened (.rejected .expression) (p.past ['{']).offset
  /-- The value of an attribute is rejected. -/
  | entry {before name code rest : List Char} {p : Progress}
      (reached : ReachedTag scripts first outer opened before p) (named : name ≠ [])
      (fits : ∀ c ∈ name, isAttributeChar c = true)
      (whole : source = before ++ (name ++ '=' :: '{' :: (code ++ '}' :: rest)))
      (balanced : Balanced .code code) (rejected : scripts.expression code p.nextId = none) :
      Stuck first outer source opened (.rejected .expression) (p.past (name ++ ['=', '{'])).offset

end

variable {scripts : ScriptReader} {p q r : Progress}

/-! ## Offsets -/

theorem Attributes.offset {text : List Char} {attributes : List Attribute}
    (h : Attributes scripts p text attributes q) : q.offset = p.offset + Text.byteSize text := by
  induction h with
  | nil => rfl
  | blank _ _ ih => simp [ih]; omega
  | entry _ _ _ _ _ ih => simp [ih]; omega

theorem StartTag.offset {tag : List Char} {name : String} {attributes : List Attribute}
    (h : StartTag scripts p tag name attributes q) :
    q.offset = p.offset + Text.byteSize tag := by
  obtain ⟨-, -, -, attributed⟩ := h
  simp [attributed.offset]
  omega

theorem Items.offset {text : List Char} {fragments : List Fragment}
    (h : Items scripts p text fragments q) : q.offset = p.offset + Text.byteSize text := by
  induction h with
  | nil => rfl
  | script _ _ _ ih => simp [ih]; omega
  | element opening _ _ ihContent ihBehind =>
    simp only [ihBehind, Progress.offset_past, ihContent, opening.offset, Text.byteSize_append]
    omega
  | interpolation _ _ _ ih => simp [ih]; omega
  | text _ _ _ _ ih => simp [ih]; omega

theorem Reached.offset {outer opened : List OpenElement} {before : List Char}
    (h : Reached scripts p outer opened before q) :
    q.offset = p.offset + Text.byteSize before := by
  induction h with
  | start => rfl
  | items _ whole ih => simp [whole.offset, ih]; omega
  | enter _ opening ih => simp [opening.offset, ih]; omega

theorem ReachedTag.offset {outer opened : List OpenElement} {before : List Char}
    (h : ReachedTag scripts p outer opened before q) :
    q.offset = p.offset + Text.byteSize before := by
  obtain ⟨reached, -, attributed⟩ := h
  simp [attributed.offset, reached.offset]
  omega

/-! ## Sequences -/

theorem Attributes.append {text text' : List Char} {attributes attributes' : List Attribute}
    (h : Attributes scripts p text attributes q) (h' : Attributes scripts q text' attributes' r) :
    Attributes scripts p (text ++ text') (attributes ++ attributes') r := by
  induction h with
  | nil => exact h'
  | blank isBlank _ ih => exact .blank isBlank (ih h')
  | entry named fits balanced accepted _ ih =>
    have whole := Attributes.entry named fits balanced accepted (ih h')
    simpa using whole

/-- White space between attributes. -/
theorem Attributes.ofBlank {text : List Char} (isBlank : ∀ c ∈ text, Text.isBlank c = true) :
    Attributes scripts p text [] (p.past text) := by
  induction text generalizing p with
  | nil => exact .nil
  | cons c rest ih =>
    have behind := ih (p := p.past [c]) fun d mem => isBlank d (List.mem_cons_of_mem c mem)
    rw [Progress.past_past, List.singleton_append] at behind
    exact .blank (isBlank c List.mem_cons_self) behind

/-- Further attributes may follow inside a start tag. -/
theorem ReachedTag.attributes {outer opened : List OpenElement} {before text : List Char}
    {attributes : List Attribute} (h : ReachedTag scripts p outer opened before q)
    (further : Attributes scripts q text attributes r) :
    ReachedTag scripts p outer opened (before ++ text) r := by
  obtain ⟨reached, named, attributed⟩ := h
  have whole := ReachedTag.tag reached named (attributed.append further)
  simpa using whole

theorem scriptStart_eq : scriptStart = ['<', 's', 'c', 'r', 'i', 'p', 't', '>'] := rfl

theorem toList_endTag (element : OpenElement) :
    element.endTag.toList = '<' :: '/' :: (element.name.toList ++ ['>']) := by
  simp [OpenElement.endTag]

theorem IsTagName.ne_nil {name : List Char} (named : IsTagName name) : name ≠ [] := by
  obtain ⟨c, rest, rfl, -⟩ := named
  exact List.cons_ne_nil c rest

/-- No item starts like an end tag. -/
theorem Items.not_endTag {text : List Char} {fragments : List Fragment}
    (h : Items scripts p text fragments q) (ne : text ≠ []) (rest : List Char)
    (element : OpenElement) : ¬ element.endTag.toList <+: text ++ rest := by
  rw [toList_endTag]
  cases h with
  | nil => exact absurd rfl ne
  | script => simp [scriptStart_eq]
  | element opening =>
    obtain ⟨⟨c, letters, rfl, isAlpha, -⟩, -, -, -⟩ := opening
    have letter : c ≠ '/' := by
      rintro rfl
      exact absurd isAlpha (by decide)
    simp [letter.symm]
  | interpolation => simp
  | @text _ _ run _ _ some fits =>
    cases run with
    | nil => exact absurd rfl some
    | cons c run =>
      have ne : c ≠ '<' := by
        rintro rfl
        exact absurd (fits '<' List.mem_cons_self) (by decide)
      simp [ne.symm]

end ReactiveMarkup.Markup
