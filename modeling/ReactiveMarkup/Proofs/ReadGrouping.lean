import ReactiveMarkup.Proofs.GroupedTree

/-!
# Trees that have been read

What is read of a script is grouped, and its names are spelled as names are (`groupedAll_of_read`):
a reader takes an operand only if it binds tight enough, and an `else` with the innermost condition
that it can belong to.

What a reader gives is described without regard to where it starts (`Yields`); each reader of the
grammar is described once, given what the readers inside it yield (`Grammar.Sound`).
-/

namespace ReactiveMarkup.Script

open Reader

/-! ## What readers yield -/

/-- Whether all that a reader can give from a state, with the state that it leaves, has a
property. -/
def Yields {α : Type} (reader : Reader α) (s : ReaderState) (P : α → ReaderState → Prop) : Prop :=
  ∀ a s', reader s = some (a, s') → P a s'

section

variable {α β : Type} {x : Reader α} {f : α → Reader β} {s : ReaderState}
  {P : β → ReaderState → Prop} {Q : α → ReaderState → Prop}

namespace Yields

theorem bind (first : Yields x s Q) (next : ∀ a s₁, Q a s₁ → Yields (f a) s₁ P) :
    Yields (x >>= f) s P := by
  intro b s' read
  obtain ⟨a, s₁, read₁, read₂⟩ := bind_eq_some_iff.1 read
  exact next a s₁ (first a s₁ read₁) b s' read₂

/-- A first step of which nothing matters. -/
theorem skip (next : ∀ a s₁, Yields (f a) s₁ P) : Yields (x >>= f) s P :=
  bind (Q := fun _ _ => True) (fun _ _ _ => trivial) fun a s₁ _ => next a s₁

theorem pure {a : α} (holds : Q a s) : Yields (Pure.pure a) s Q := by
  intro b s' read
  cases read
  exact holds

theorem imp {R : α → ReaderState → Prop} (h : Yields x s Q) (weaker : ∀ a s', Q a s' → R a s') :
    Yields x s R := fun a s' read => weaker a s' (h a s' read)

theorem and {R : α → ReaderState → Prop} (h : Yields x s Q) (h' : Yields x s R) :
    Yields x s fun a s' => Q a s' ∧ R a s' :=
  fun a s' read => ⟨h a s' read, h' a s' read⟩

theorem failure : Yields (failure : Reader α) s Q := by
  intro a s' read
  cases read

theorem ite {c : Prop} [Decidable c] {y : Reader α} (yes : c → Yields x s Q)
    (no : ¬ c → Yields y s Q) : Yields (if c then x else y) s Q := by
  split
  · exact yes ‹_›
  · exact no ‹_›

theorem current : Yields current s fun t s' => t = s.token ∧ s' = s := by
  intro t s' read
  cases read
  exact ⟨rfl, rfl⟩

theorem at? (mark : String) :
    Yields (at? mark) s fun found s' => found = s.token.isPunctuator mark ∧ s' = s := by
  intro found s' read
  cases read
  exact ⟨rfl, rfl⟩

theorem accept (mark : String) :
    Yields (accept mark) s fun taken _ => taken = s.token.isPunctuator mark := by
  refine bind (at? mark) fun found s₁ ⟨eq, _⟩ => ite (fun isMark => ?_) fun noMark => pure ?_
  · exact skip fun _ _ => pure (isMark.symm.trans eq)
  · exact (Bool.not_eq_true _ ▸ noMark).symm.trans eq

theorem require (c : Bool) : Yields (require c) s fun _ s' => c = true ∧ s' = s := by
  intro _ s' read
  rw [run_require] at read
  split at read
  · cases read
    exact ⟨‹_›, rfl⟩
  · cases read

theorem acceptWord (word : String) :
    Yields (acceptWord word) s fun taken s' =>
      taken = s.token.isWord word ∧ (taken = false → s' = s) := by
  refine bind (Q := fun found s' => found = s.token.isWord word ∧ s' = s) ?_ ?_
  · intro found s' read
    cases read
    exact ⟨rfl, rfl⟩
  · rintro found _ ⟨eq, rfl⟩
    refine ite (fun isWord => skip fun _ _ => pure ⟨isWord.symm.trans eq, by simp⟩) fun noWord => ?_
    exact pure ⟨(Bool.not_eq_true _ ▸ noWord).symm.trans eq, fun _ => rfl⟩

/-- Something that a reader need not find. -/
theorem found {R : α → Prop} {a : α} (holds : R a) :
    Yields (Pure.pure (some a)) s fun next _ => ∀ b, next = some b → R b := by
  refine pure ?_
  rintro _ ⟨⟩
  exact holds

theorem notFound {R : α → Prop} :
    Yields (Pure.pure none) s fun next _ => ∀ b, next = some b → R b := by
  refine pure ?_
  rintro _ ⟨⟩

/-- What every item of a list has. -/
theorem collect {reader : Reader (Option α)} {R : α → Prop}
    (item : ∀ s, Yields reader s fun next _ => ∀ a, next = some a → R a) (fuel : Nat) :
    ∀ s, Yields (collect reader fuel) s fun items _ => ∀ a ∈ items, R a := by
  induction fuel with
  | zero => exact fun s => failure
  | succ fuel ih =>
    intro s
    refine bind (item s) fun next s₁ holds => ?_
    cases next with
    | none => exact pure (by simp)
    | some a =>
      refine bind (ih s₁) fun items _ all => pure ?_
      intro b mem
      rcases List.mem_cons.1 mem with rfl | mem
      · exact holds b rfl
      · exact all b mem

/-- A list that has a first item is not empty. -/
theorem collect_ne_nil {reader : Reader (Option α)}
    (first : Yields reader s fun next _ => next.isSome = true) (fuel : Nat) :
    Yields (Reader.collect reader fuel) s fun items _ => items ≠ [] := by
  cases fuel with
  | zero => exact failure
  | succ fuel =>
    refine bind first fun next s₁ found => ?_
    cases next with
    | none => cases found
    | some a => exact skip fun _ _ => pure (List.cons_ne_nil _ _)

end Yields

end

/-! ## Phrases -/

/-- Whether a phrase is grouped in the places where it may stand, whatever function it stands in. -/
structure Phrase.Sound (stands : Place → Prop) (p : Phrase) : Prop where
  grouped : ∀ ctx place, stands place → p.tree.Grouped ctx place
  /-- What it is when it is assigned to is grouped as well. -/
  target : ∀ ctx t, p.place = some t → t.Grouped ctx
  named : ∀ name, p.form = .name name → p.tree = .identifier name

/-- Whether a phrase may stand in every place. -/
abbrev Phrase.IsLink (p : Phrase) : Prop := p.Sound fun _ => True

/-- Whether a phrase may stand among operands, and is no operation. -/
def Phrase.IsOperand (p : Phrase) : Prop := p.tree.operator? = none ∧ p.Sound (· ≠ .chain)

/-- Whether a phrase may stand where operators bind tighter than a level. -/
abbrev Phrase.IsOperation (level : Nat) (p : Phrase) : Prop :=
  p.Sound fun place => place ≠ .chain ∧ place.level = level

/-- Whether a phrase may stand where no comma may. -/
abbrev Phrase.IsWhole (p : Phrase) : Prop := p.Sound fun place => place.isWhole = true

/-- Whether a phrase may stand where commas may. -/
abbrev Phrase.IsSequence (p : Phrase) : Prop := p.Sound (· = .sequence)

theorem Phrase.Sound.mono {stands stands' : Place → Prop} {p : Phrase} (sound : p.Sound stands)
    (fewer : ∀ place, stands' place → stands place) : p.Sound stands' :=
  ⟨fun ctx place h => sound.grouped ctx place (fewer place h), sound.target, sound.named⟩

theorem Place.isWhole_spec {place : Place} (isWhole : place.isWhole = true) :
    place ≠ .chain ∧ place.level = 0 := by
  cases place with
  | chain => cases isWhole
  | operand level => cases isWhole
  | _ => exact ⟨by decide, rfl⟩

section

variable {p : Phrase}

theorem Phrase.isOperand_of_isLink (link : p.IsLink) : p.IsOperand := by
  refine ⟨?_, link.mono fun _ _ => trivial⟩
  have grouped := link.grouped .topLevel .chain trivial
  cases eq : p.tree with
  | binary left operator right =>
    rw [eq] at grouped
    exact absurd rfl grouped.1
  | _ => rfl

theorem Phrase.isWhole_of_isOperation (operation : p.IsOperation 0) : p.IsWhole :=
  operation.mono fun _ => Place.isWhole_spec

theorem Phrase.isSequence_of_isWhole (whole : p.IsWhole) : p.IsSequence :=
  whole.mono fun place eq => by rw [eq]; rfl

/-- Whether a phrase is kept as its text. -/
structure Phrase.IsVerbatim (p : Phrase) : Prop where
  tree : ∃ source references, p.tree = .verbatim source references
  place : p.place = none
  form : ∀ name, p.form ≠ .name name

theorem Phrase.IsVerbatim.isLink (verbatim : p.IsVerbatim) : p.IsLink where
  grouped ctx place _ := by
    obtain ⟨source, references, eq⟩ := verbatim.tree
    rw [eq]
    trivial
  target ctx t found := by
    rw [verbatim.place] at found
    cases found
  named name found := absurd found (verbatim.form name)

end

theorem isNamed_of_isBindable {ctx : Context} {name : String}
    (bindable : isBindable ctx name = true) : isNamed name = true := by
  simp only [isBindable, Bool.and_eq_true] at bindable
  simp [isNamed, bindable.1.1]

section

variable {s : ReaderState}

theorem yields_verbatimAs {form : Form} (unnamed : ∀ name, form ≠ .name name) (start : Cursor)
    (mentions : List Mention) :
    Yields (verbatimAs form start mentions) s fun p _ => p.IsVerbatim :=
  .skip fun _ _ => .pure ⟨⟨_, _, rfl⟩, rfl, unnamed⟩

theorem yields_verbatimFrom (start : Cursor) (mentions : List Mention) :
    Yields (verbatimFrom start mentions) s fun p _ => p.IsVerbatim :=
  yields_verbatimAs (by simp) start mentions

theorem yields_phraseFrom (start : Cursor) (tree : Expression) (mentions : List Mention) :
    Yields (phraseFrom start tree mentions) s fun p s' =>
      p = ⟨tree, mentions, start, s.last, .other, none, 0⟩ ∧ s' = s := by
  intro p s' read
  cases read
  exact ⟨rfl, rfl⟩

/-- A phrase of no particular form that cannot be assigned to. -/
theorem yields_plain {stands : Place → Prop} {tree : Expression}
    (grouped : ∀ ctx place, stands place → tree.Grouped ctx place) (start : Cursor)
    (mentions : List Mention) :
    Yields (phraseFrom start tree mentions) s fun p _ => p.Sound stands := by
  refine (yields_phraseFrom start tree mentions).imp ?_
  rintro _ _ ⟨rfl, -⟩
  exact ⟨grouped, by simp, by simp⟩

theorem yields_takeName (ctx : Context) :
    Yields (takeName ctx) s fun name _ => isBindable ctx name = true := by
  intro name s' read
  obtain ⟨⟨escaped, kind⟩, isName, -⟩ := exists_of_takeName read
  have spelled := s.spelled name escaped kind
  unfold isNameToken at isName
  rw [kind] at isName
  simpa [isBindable, spelled, Bool.and_assoc] using isName

theorem yields_namePhrase {name : String} (isName : isNamed name = true) (start : Cursor) :
    Yields (namePhrase start name) s fun p _ => p.IsLink := by
  refine .skip fun _ _ => .pure ⟨fun _ _ _ => isName, ?_, ?_⟩
  · intro ctx t found
    cases found
    exact isName
  · intro name' found
    cases found
    rfl

/-! ## What the readers inside a reader yield -/

/-- Whether a statement that has been read is grouped, and no `else` is left behind one that it
could belong to. -/
structure Clause.Sound (ctx : Context) (isSingle : Bool) (c : Clause) (s : ReaderState) : Prop where
  grouped : c.tree.Grouped ctx isSingle
  closed : c.tree.isOpen = true → s.token.isWord "else" = false

/-- Whether the operator at hand, if there is one, does not bind tighter than a level. -/
def ReaderState.EndsOperation (s : ReaderState) (ctx : Context) (level : Nat) : Prop :=
  ∀ operator, operator? ctx s.token = some operator → bindsWithin operator level = false

/-- Whether the readers of nested phrases give what is grouped. -/
structure Grammar.Sound (g : Grammar) : Prop where
  assignment : ∀ ctx s, Yields (g.assignment ctx) s fun p _ => p.IsWhole
  operation : ∀ ctx level s, Yields (g.operation ctx level) s fun p s' =>
    p.IsOperation level ∧ s'.EndsOperation ctx level
  operand : ∀ ctx s, Yields (g.operand ctx) s fun p _ => p.IsOperand
  construction : ∀ ctx s, Yields (g.construction ctx) s fun p _ => p.IsLink
  binding : ∀ ctx s, Yields (g.binding ctx) s fun b _ => b.pattern.Binds ctx
  statement : ∀ ctx isSingle s, Yields (g.statement ctx isSingle) s (Clause.Sound ctx isSingle)

theorem Grammar.sound_exhausted : Grammar.exhausted.Sound where
  assignment _ _ := .failure
  operation _ _ _ := .failure
  operand _ _ := .failure
  construction _ _ := .failure
  binding _ _ := .failure
  statement _ _ _ := .failure

end

/-! ## Expressions -/

theorem groupedAll_trees {ctx : Context} {place : Place} {stands : Place → Prop}
    {phrases : List Phrase} (sound : ∀ p ∈ phrases, p.Sound stands) (allowed : stands place) :
    Expression.GroupedAll ctx place (phrases.map Phrase.tree) := by
  induction phrases with
  | nil => trivial
  | cons p rest ih =>
    exact ⟨(sound p List.mem_cons_self).grouped ctx place allowed,
      ih fun q mem => sound q (List.mem_cons_of_mem p mem)⟩

section

variable {g : Grammar} (sound : g.Sound) (ctx : Context) (s : ReaderState)
include sound

theorem yields_expression : Yields (g.expression ctx) s fun p _ => p.IsSequence := by
  unfold Grammar.expression
  refine .bind (sound.assignment ctx s) fun first s₁ whole => ?_
  refine .bind (.at? ",") fun more s₂ ⟨found, same⟩ => .ite (fun isMore => ?_) fun _ => ?_
  · have item : ∀ s,
        Yields (sequenceItem g ctx) s fun next _ => ∀ p, next = some p → p.IsWhole := by
      intro s
      refine .skip fun taken _ => .ite (fun _ => ?_) fun _ => .notFound
      exact .bind (sound.assignment ctx _) fun p _ whole => .found whole
    -- the comma at hand is followed by an item, so a sequence has two items at least
    have next : Yields (sequenceItem g ctx) s₂ fun next _ => next.isSome = true := by
      refine .bind (.accept ",") fun taken _ eq => .ite (fun _ => ?_) fun notTaken => ?_
      · exact .skip fun _ _ => .pure rfl
      · rw [same, ← found] at eq
        exact absurd (eq.trans isMore) notTaken
    refine .bind ((Yields.collect item g.limit s₂).and (.collect_ne_nil next g.limit))
      fun rest _ ⟨all, more⟩ => ?_
    refine yields_plain ?_ _ _
    rintro ctx' _ rfl
    refine ⟨rfl, ?_, whole.grouped ctx' .whole rfl, groupedAll_trees all rfl⟩
    rw [List.length_cons, List.length_map]
    exact Nat.succ_le_succ (List.length_pos_iff.2 more)
  · exact .pure (Phrase.isSequence_of_isWhole whole)

theorem yields_readParenthesized : Yields (readParenthesized g ctx) s fun p _ => p.IsLink := by
  unfold readParenthesized
  refine .skip fun t _ => .skip fun _ _ => ?_
  refine .bind (yields_expression sound ctx.bracketed _) fun inner _ sequence => .skip fun _ _ => ?_
  refine .bind (yields_phraseFrom _ _ _) ?_
  rintro _ _ ⟨rfl, -⟩
  exact .pure ⟨fun ctx' _ _ => sequence.grouped ctx' .sequence rfl, sequence.target, by simp⟩

/-! ## Functions -/

omit sound in
theorem Statement.groupedAll_of_forall {ctx : Context} {statements : List Statement}
    (grouped : ∀ t ∈ statements, t.Grouped ctx false) : Statement.GroupedAll ctx statements := by
  induction statements with
  | nil => trivial
  | cons t rest ih =>
    exact ⟨grouped t List.mem_cons_self, ih fun u mem => grouped u (List.mem_cons_of_mem t mem)⟩

omit sound in
theorem groupedAll_clauses {ctx : Context} {clauses : List Clause}
    (grouped : ∀ c ∈ clauses, c.tree.Grouped ctx false) :
    Statement.GroupedAll ctx (clauses.map Clause.tree) :=
  Statement.groupedAll_of_forall (by simpa using grouped)

theorem yields_readBlock :
    Yields (readBlock g ctx) s fun clauses _ => ∀ c ∈ clauses, c.tree.Grouped ctx false := by
  refine .skip fun _ s₁ => Yields.collect (fun s => ?_) g.limit s₁
  refine .skip fun taken _ => .ite (fun _ => .notFound) fun _ => ?_
  exact .bind (sound.statement ctx false _) fun c _ clause => .found clause.grouped

theorem yields_readFunctionBody :
    Yields (readFunctionBody g ctx) s fun clauses _ => ∀ c ∈ clauses, c.tree.Grouped ctx false := by
  refine .bind (yields_readBlock sound ctx s) fun clauses _ grouped => .pure ?_
  exact fun c mem => grouped c (List.dropWhile_sublist _ |>.subset mem)

/-- Whether a function with a keyword that has been read is grouped, where its name is read in one
of some contexts. -/
def FunctionScan.Sound (outer : Bool → Bool → Context) (isNeeded isAsync : Bool)
    (scan : FunctionScan) : Prop :=
  ∃ name isGenerator params names body,
    scan.function = ⟨0, ⟨name, false, isAsync, isGenerator, params, names⟩, .block body⟩ ∧
      (∀ text, name = some text → isBindable (outer isAsync isGenerator) text = true) ∧
      (isNeeded = true → name.isSome = true) ∧
      Statement.GroupedAll (.function isAsync isGenerator) body

omit sound in
theorem yields_functionName (isNeeded : Bool) :
    Yields (functionName ctx isNeeded) s fun name _ =>
      (∀ text, name = some text → isBindable ctx text = true) ∧
        (isNeeded = true → name.isSome = true) := by
  unfold functionName
  have taken : ∀ s, Yields (do return some (← takeName ctx)) s fun name _ =>
      (∀ text, name = some text → isBindable ctx text = true) ∧
        (isNeeded = true → name.isSome = true) := by
    intro s
    refine .bind (yields_takeName ctx) fun text _ bindable => .pure ⟨?_, fun _ => rfl⟩
    rintro _ ⟨⟩
    exact bindable
  refine .ite (fun _ => taken s) fun optional => .skip fun _ s₁ =>
    .ite (fun _ => taken s₁) fun _ => ?_
  exact .pure ⟨by simp, fun needed => absurd needed optional⟩

theorem yields_readFunction (outer : Bool → Bool → Context) (isNeeded isAsync : Bool) :
    Yields (readFunction g outer isNeeded isAsync) s fun scan _ =>
      scan.Sound outer isNeeded isAsync := by
  unfold readFunction
  refine .skip fun _ _ => .skip fun isGenerator _ => ?_
  refine .bind (yields_functionName _ _ isNeeded) fun name _ ⟨bindable, present⟩ => ?_
  refine .skip fun params _ => .bind (yields_readFunctionBody sound _ _) fun body _ grouped => ?_
  exact .pure ⟨name, isGenerator, _, _, _, rfl, bindable, present, groupedAll_clauses grouped⟩

omit sound in
theorem yields_functionPhrase {stands : Place → Prop} {scan : FunctionScan}
    (grouped : ∀ ctx place, stands place → scan.function.Grouped ctx place) (start : Cursor) :
    Yields (functionPhrase start scan) s fun p _ => p.Sound stands :=
  yields_plain grouped start _

/-- A function expression may stand in every place. -/
theorem yields_readFunctionExpression (isAsync : Bool) :
    Yields (readFunctionExpression g isAsync) s fun p _ => p.IsLink := by
  unfold readFunctionExpression
  have phrase : ∀ start s, Yields
      (do functionPhrase start (← readFunction g Context.function false isAsync)) s
      fun p _ => p.IsLink := by
    intro start s
    refine .bind (yields_readFunction sound s Context.function false isAsync) ?_
    rintro scan s₁ ⟨name, isGenerator, params, names, body, eq, bindable, -, grouped⟩
    refine yields_functionPhrase s₁ (fun _ _ _ => ?_) start
    rw [eq]
    exact ⟨bindable, grouped⟩
  refine .skip fun t _ => ?_
  dsimp only
  exact .ite (fun _ => .skip fun _ _ => phrase _ _) fun _ => phrase _ _

/-- Whether an arrow that has been read may stand where a whole expression does. -/
def FunctionScan.IsArrow (scan : FunctionScan) : Prop :=
  ∀ ctx place, place.isWhole = true → scan.function.Grouped ctx place

theorem yields_readArrowBody (isAsync : Bool) (params : Parameters) :
    Yields (readArrowBody g ctx isAsync params) s fun scan _ => scan.IsArrow := by
  unfold readArrowBody
  refine .skip fun _ _ => .ite (fun _ => ?_) fun _ => ?_
  · refine .bind (yields_readFunctionBody sound _ _) fun body _ grouped => .pure ?_
    exact fun ctx' place isWhole => ⟨⟨isWhole, rfl, rfl⟩, groupedAll_clauses grouped⟩
  · refine .bind (sound.assignment _ _) fun value _ whole => .pure ?_
    exact fun ctx' place isWhole => ⟨rfl, ⟨isWhole, rfl, rfl⟩, whole.grouped _ .whole rfl⟩

/-- The phrase of an arrow, from behind its mark on. -/
theorem yields_arrow (start : Cursor) (isAsync : Bool) (params : Parameters) :
    Yields (do functionPhrase start (← readArrowBody g ctx isAsync params)) s
      fun p _ => p.IsWhole :=
  .bind (yields_readArrowBody sound ctx s isAsync params) fun _ s₁ arrow =>
    yields_functionPhrase s₁ arrow start

/-! ## Accesses and calls -/

omit sound in
theorem yields_tokenPhrase {form : Form} (unnamed : ∀ name, form ≠ .name name) :
    Yields (tokenPhrase form) s fun p _ => p.IsLink :=
  .skip fun _ _ => .skip fun _ _ =>
    (yields_verbatimAs unnamed _ _).imp fun _ _ verbatim => verbatim.isLink

omit sound in
theorem yields_kept (start : Cursor) (mentions : List Mention) :
    Yields (verbatimFrom start mentions) s fun p _ => p.IsLink :=
  (yields_verbatimFrom start mentions).imp fun _ _ verbatim => verbatim.isLink

omit sound in
theorem yields_literalPhrase (start : Cursor) (items : List LiteralItem) :
    Yields (literalPhrase start items) s fun p _ => p.IsLink := by
  unfold literalPhrase
  refine .bind (yields_verbatimAs ?_ start _) fun p _ verbatim => .pure ?_
  · intro name
    split <;> simp
  · exact Phrase.IsVerbatim.isLink ⟨verbatim.tree, verbatim.place, verbatim.form⟩

theorem yields_readWord (word : String) : Yields (readWord g ctx word) s fun p _ => p.IsLink := by
  unfold readWord
  refine .skip fun t s₁ => .skip fun next s₂ => ?_
  refine .ite (fun _ => yields_tokenPhrase s₂ (by simp)) fun _ => ?_
  refine .ite (fun _ => yields_readFunctionExpression sound s₂ false) fun _ => ?_
  refine .ite (fun _ => .skip fun _ _ => .skip fun _ _ => .skip fun _ s₃ => yields_kept s₃ _ _)
    fun _ => ?_
  refine .ite (fun _ => yields_readFunctionExpression sound s₂ true) fun _ => ?_
  refine .bind (yields_takeName ctx) fun name _ bindable => ?_
  exact yields_namePhrase (isNamed_of_isBindable bindable) _

theorem yields_readPrimary : Yields (readPrimary g ctx) s fun p _ => p.IsLink := by
  unfold readPrimary
  refine .skip fun t s₁ => ?_
  split
  · exact yields_readWord sound ctx s₁ _
  · exact yields_tokenPhrase s₁ (by simp)
  · exact yields_tokenPhrase s₁ (by simp)
  · exact .skip fun _ s₂ => yields_kept s₂ _ _
  · exact yields_readParenthesized sound ctx s₁
  · exact .skip fun _ _ => .skip fun _ _ => .skip fun _ s₂ => yields_literalPhrase s₂ _ _
  · exact .skip fun _ _ => .skip fun _ _ => .skip fun _ s₂ => yields_literalPhrase s₂ _ _
  · exact .skip fun _ _ => .skip fun _ _ => .skip fun _ s₂ => yields_kept s₂ _ _
  · exact .skip fun _ _ => .skip fun _ _ => .skip fun _ _ => .skip fun _ s₂ =>
      yields_tokenPhrase s₂ (by simp)
  · exact .failure

theorem yields_readArguments :
    Yields (readArguments g ctx) s fun items _ => ∀ p ∈ items, p.Sound (· = .argument) := by
  have argument : ∀ s,
      Yields (readArgument g ctx.bracketed) s fun p _ => p.Sound (· = .argument) := by
    intro s
    refine .skip fun t _ => .skip fun _ s₁ => .ite (fun _ => ?_) fun _ => ?_
    · exact .skip fun _ s₂ => (yields_kept s₂ _ _).imp fun p _ link => link.mono fun _ _ => trivial
    · refine (sound.assignment _ s₁).imp fun p _ whole => whole.mono ?_
      rintro _ rfl
      rfl
  refine .skip fun _ s₁ => Yields.collect (fun s => ?_) g.limit s₁
  refine .skip fun taken _ => .ite (fun _ => .notFound) fun _ => ?_
  refine .bind (argument _) fun p _ holds => ?_
  exact .skip fun _ _ => .ite (fun _ => .found holds) fun _ => .skip fun _ _ => .found holds

/-! ### Links -/

omit sound in
theorem yields_extendVerbatim {c : Chain} (mentions : List Mention) :
    Yields (c.extendVerbatim mentions) s fun d _ => d.phrase.IsLink := by
  refine .bind (yields_verbatimFrom _ _) fun p _ verbatim => .pure ⟨?_, ?_, ?_⟩
  · exact verbatim.isLink.grouped
  · rintro ctx t ⟨⟩
    trivial
  · exact verbatim.isLink.named

omit sound in
theorem yields_extendMember {c : Chain} (link : c.phrase.IsLink) {name : String}
    (spelled : isSpelled name = true) :
    Yields (c.extendMember name) s fun d _ => d.phrase.IsLink := by
  have object : ∀ ctx, c.phrase.tree.Grouped ctx c.phrase.tree.calleePlace :=
    fun ctx => link.grouped ctx _ trivial
  refine .bind (yields_phraseFrom _ _ _) ?_
  rintro _ _ ⟨rfl, -⟩
  refine .pure ⟨fun ctx _ _ => ⟨rfl, spelled, object ctx⟩, ?_, by simp⟩
  rintro ctx _ ⟨⟩
  exact ⟨spelled, object ctx⟩

omit sound in
theorem yields_extendCall {c : Chain} (link : c.phrase.IsLink) {arguments : List Phrase}
    (all : ∀ p ∈ arguments, p.Sound (· = .argument)) :
    Yields (c.extendCall arguments) s fun d _ => d.phrase.IsLink := by
  refine .bind (Q := fun p _ => p.IsLink) (yields_plain ?_ _ _) fun p _ sound => .pure sound
  exact fun ctx' _ _ => ⟨rfl, link.grouped ctx' _ trivial, groupedAll_trees all rfl⟩

omit sound in
theorem yields_extendRigid {c : Chain} (mentions : List Mention) :
    Yields (c.extendRigid mentions) s fun d _ => d.phrase.IsLink :=
  .bind (yields_kept s _ _) fun _ _ link => .pure link

omit sound in
theorem yields_readNamedLink {c : Chain} (link : c.phrase.IsLink) :
    Yields (readNamedLink c) s fun d _ => d.phrase.IsLink := by
  unfold readNamedLink
  refine .bind .current ?_
  rintro t s₀ ⟨rfl, rfl⟩
  split
  · rename_i name escaped kind
    exact .skip fun _ s₁ => yields_extendMember s₁ link (s₀.spelled name escaped kind)
  · exact .skip fun _ s₁ => yields_extendVerbatim s₁ []
  · exact .failure

omit sound in
theorem yields_readComputedLink (c : Chain) :
    Yields (readComputedLink g ctx c) s fun d _ => d.phrase.IsLink :=
  .skip fun _ _ => .skip fun _ _ => .skip fun _ s₁ => yields_extendVerbatim s₁ _

/-- The link that follows a chain, if there is one. -/
theorem yields_readNextLink (allowsCalls : Bool) {c : Chain} (link : c.phrase.IsLink) :
    Yields (readNextLink g ctx allowsCalls c) s fun next _ =>
      ∀ d, next = some d → d.phrase.IsLink := by
  have more : ∀ {x : Reader Chain} {s : ReaderState}, Yields x s (fun d _ => d.phrase.IsLink) →
      Yields (do return some (← x)) s fun next _ => ∀ d, next = some d → d.phrase.IsLink :=
    fun extended => .bind extended fun _ _ link => .found link
  unfold readNextLink
  refine .skip fun t s₁ => ?_
  split
  · exact .skip fun _ s₂ => more (yields_readNamedLink s₂ link)
  · refine .skip fun _ _ => .skip fun _ s₂ => more ?_
    refine .skip fun _ s₃ => .ite (fun _ => ?_) fun _ => ?_
    · exact .bind (yields_readArguments sound ctx s₃) fun _ s₄ =>
        yields_extendCall (c := ⟨c.phrase, true⟩) s₄ link
    refine .skip fun _ s₄ => .ite (fun _ => yields_readComputedLink ctx s₄ _) fun _ => ?_
    exact yields_readNamedLink s₄ link
  · exact .ite (fun _ => .notFound) fun _ => more (yields_readComputedLink ctx s₁ c)
  · refine .ite (fun _ => ?_) fun _ => .notFound
    exact .bind (yields_readArguments sound ctx s₁) fun _ s₂ all =>
      more (yields_extendCall s₂ link all)
  · exact .skip fun _ _ => .skip fun _ s₂ => more (yields_extendRigid s₂ _)
  · exact .notFound

/-- The links that follow a chain. -/
theorem yields_readLinks (allowsCalls : Bool) (fuel : Nat) :
    ∀ {c : Chain} (s : ReaderState), c.phrase.IsLink →
      Yields (readLinks g ctx allowsCalls fuel c) s fun d _ => d.phrase.IsLink := by
  induction fuel with
  | zero => exact fun s _ => .failure
  | succ fuel ih =>
    intro c s link
    refine .bind (yields_readNextLink sound ctx s allowsCalls link) fun next s₁ found => ?_
    cases next with
    | none => exact .pure link
    | some d => exact ih s₁ (found d rfl)

/-! ### Chains -/

omit sound in
theorem yields_readImport : Yields (readImport g ctx) s fun p _ => p.IsLink := by
  have called : ∀ start s, Yields (readImportCall g ctx start) s fun p _ => p.IsLink :=
    fun start s => .skip fun _ _ => .skip fun _ _ => .skip fun _ _ =>
      (yields_verbatimAs (by simp) _ _).imp fun _ _ verbatim => verbatim.isLink
  unfold readImport
  refine .skip fun t _ => .skip fun _ _ => .skip fun _ s₁ => .ite (fun _ => ?_) fun _ => called _ s₁
  refine .skip fun _ s₂ => .ite (fun _ => yields_kept s₂ _ _) fun _ => ?_
  exact .skip fun _ _ => .ite (fun _ => called _ _) fun _ => .skip fun _ _ => called _ _

theorem yields_readChainStart : Yields (readChainStart g ctx) s fun p _ => p.IsLink := by
  unfold readChainStart
  refine .skip fun t s₁ => .ite (fun _ => ?_) fun _ => .ite (fun _ => ?_) fun _ =>
    .ite (fun _ => sound.construction ctx s₁) fun _ => yields_readPrimary sound ctx s₁
  · refine .bind (yields_tokenPhrase s₁ (by simp)) fun p _ link => ?_
    exact .skip fun _ _ => .skip fun _ _ => .skip fun _ _ => .skip fun _ _ => .pure link
  · exact yields_readImport ctx s₁

omit sound in
theorem yields_readConstruction : Yields (readConstruction g ctx) s fun p _ => p.IsLink := by
  unfold readConstruction
  refine .skip fun t s₁ => .skip fun _ _ => .skip fun _ _ => .ite (fun _ => ?_) fun _ => ?_
  · exact .skip fun _ s₂ => yields_kept s₂ _ _
  · refine .skip fun _ _ => .skip fun _ _ => .skip fun _ _ => .skip fun _ _ => ?_
    exact .ite (fun _ => .skip fun _ s₂ => yields_kept s₂ _ _) fun _ => .skip fun _ s₂ =>
      yields_kept s₂ _ _

/-- A chain of accesses and calls may stand in every place. -/
theorem yields_readAccess : Yields (readAccess g ctx) s fun p _ => p.IsLink := by
  unfold readAccess
  refine .bind (yields_readChainStart sound ctx s) fun start s₁ link => ?_
  refine .bind (yields_readLinks sound ctx true g.limit s₁ link) fun d s₂ link => ?_
  exact .ite (fun _ => yields_kept s₂ _ _) fun _ => .pure link

/-! ## Operators -/

omit sound in
theorem mem_updateMarks {t : Token} {mark : String} (found : updateMark? t = some mark) :
    mark ∈ updateMarks := by
  unfold updateMark? at found
  split at found
  · cases found
    decide
  · split at found <;> cases found
    decide

omit sound in
theorem yields_updatePhrase {start : Cursor} {mark : String} (known : mark ∈ updateMarks)
    (leading : Bool) {stands : Place → Prop} {argument : Phrase} (h : argument.Sound stands) :
    Yields (updatePhrase start mark leading argument) s fun p _ => p.IsOperand := by
  unfold updatePhrase
  split
  · exact .failure
  · rename_i target place
    refine (yields_phraseFrom _ _ _).imp ?_
    rintro _ _ ⟨rfl, -⟩
    exact ⟨rfl, fun ctx _ other => ⟨other, known, h.target ctx target place⟩, by simp, by simp⟩

omit sound in
theorem yields_leadingPhrase (start : Cursor) (argument : Phrase) :
    Yields (leadingPhrase start argument) s fun p _ => p.IsLink := by
  refine .bind (yields_verbatimAs (by simp) _ _) fun p _ verbatim => ?_
  exact .skip fun _ _ => .skip fun _ _ => .pure verbatim.isLink

theorem yields_readOperand : Yields (readOperand g ctx) s fun p _ => p.IsOperand := by
  have leading : ∀ start s, Yields (do leadingPhrase start (← g.operand ctx)) s
      fun p _ => p.IsOperand := fun start s => .skip fun argument s₁ =>
    (yields_leadingPhrase s₁ start argument).imp fun _ _ => Phrase.isOperand_of_isLink
  unfold readOperand
  refine .skip fun t s₁ => .skip fun next s₂ => ?_
  split
  · rename_i mark found
    refine .skip fun _ _ => .bind (sound.operand ctx _) fun argument s₃ operand => ?_
    exact yields_updatePhrase s₃ (mem_updateMarks found) true operand.2
  · refine .ite (fun _ => .skip fun _ _ => leading _ _) fun _ => ?_
    refine .ite (fun _ => .skip fun _ _ => .skip fun _ _ => leading _ _) fun _ => ?_
    unfold readTrailing
    refine .bind (yields_readAccess sound ctx s₂) fun argument _ link => .skip fun t s₃ => ?_
    split
    · rename_i mark found
      refine .ite (fun _ => .pure (Phrase.isOperand_of_isLink link)) fun _ => ?_
      exact .skip fun _ s₄ => yields_updatePhrase s₄ (mem_updateMarks found) false link
    · exact .pure (Phrase.isOperand_of_isLink link)

omit sound in
theorem mem_operatorMarks {mark : String} (level : markLevel mark ≠ 0) : mark ∈ operatorMarks := by
  unfold markLevel at level
  split at level <;> first | decide | exact absurd rfl level

omit sound in
/-- The operator that a token is, is known and binds as tight as it does. -/
theorem operator?_known {t : Token} {operator : String × Nat}
    (found : operator? ctx t = some operator) :
    operator.1 ∈ operatorMarks ++ operatorWords ∧ operator.2 = operatorLevel operator.1 := by
  unfold operator? at found
  split at found
  · rename_i mark kind
    split at found
    · cases found
    · rename_i level
      cases found
      have known := mem_operatorMarks level
      refine ⟨List.mem_append_left _ known, ?_⟩
      rw [operatorLevel, (operatorMarks_known mark known).2.2.1, if_neg Bool.false_ne_true]
  · cases found
    decide
  · split at found <;> cases found
    decide
  · cases found

omit sound in
theorem yields_operationPhrase (operator : String) (left right : Phrase) :
    Yields (operationPhrase operator left right) s fun p s' =>
      p.tree = .binary left.tree operator right.tree ∧ p.place = none ∧
        (∀ name, p.form ≠ .name name) ∧ s' = s := by
  refine .bind (.require _) ?_
  rintro _ _ ⟨-, rfl⟩
  refine .bind (yields_phraseFrom _ _ _) ?_
  rintro _ _ ⟨rfl, rfl⟩
  refine .pure ⟨rfl, rfl, fun name => ?_, rfl⟩
  unfold operationForm
  split <;> simp

/-- Operands that operators join: an operand on the left ends before the operator that follows it,
and the reader stops at an operator that does not bind tight enough. -/
theorem yields_readOperations (level fuel : Nat) :
    ∀ {left : Phrase} (s : ReaderState), left.IsOperation level →
      (∀ operator, operator? ctx s.token = some operator → left.tree.ClosesBefore operator.1) →
      Yields (readOperations g ctx level fuel left) s fun p s' =>
        p.IsOperation level ∧ s'.EndsOperation ctx level := by
  induction fuel with
  | zero => exact fun s _ _ => .failure
  | succ fuel ih =>
    intro left s operation closes
    unfold readOperations
    refine .bind .current ?_
    rintro _ s₀ ⟨rfl, rfl⟩
    split
    · rename_i none
      refine .bind (.require _) ?_
      rintro _ _ ⟨-, rfl⟩
      refine .pure ⟨operation, fun operator found => ?_⟩
      rw [none] at found
      cases found
    · rename_i operator found
      refine .ite (fun binds => ?_) fun loose => .pure ⟨operation, fun operator' found' => ?_⟩
      · -- what has been joined becomes the left operand, which ends before this operator
        obtain ⟨known, levelEq⟩ := operator?_known ctx found
        refine .skip fun _ s₁ => .bind (sound.operation ctx operator.2 s₁) ?_
        rintro right s₂ ⟨operation', ends⟩
        refine .bind (yields_operationPhrase s₂ operator.1 left right) ?_
        rintro p _ ⟨tree, place, form, rfl⟩
        refine ih _ ⟨?_, by simp [place], fun name eq => absurd eq (form name)⟩ ?_
        · rintro ctx' place ⟨other, eq⟩
          rw [tree]
          refine ⟨other, known, ?_, closes operator found, ?_, ?_⟩
          · rw [eq, ← levelEq]
            exact binds
          · rw [eq]
            exact operation.grouped ctx' _ ⟨by simp, rfl⟩
          · rw [← levelEq]
            exact operation'.grouped ctx' _ ⟨by simp, rfl⟩
        · -- the operator behind the right operand does not bind tighter than this one
          intro next found' inner same
          rw [tree] at same
          cases same
          rw [← (operator?_known ctx found').2, ← levelEq]
          exact ends next found'
      · rw [found] at found'
        cases found'
        exact Bool.not_eq_true _ ▸ loose

theorem yields_readOperation (level : Nat) :
    Yields (readOperation g ctx level) s fun p s' =>
      p.IsOperation level ∧ s'.EndsOperation ctx level := by
  have operations : ∀ {p : Phrase} (s : ReaderState), p.IsOperand →
      Yields (readOperations g ctx level g.limit p) s fun p s' =>
        p.IsOperation level ∧ s'.EndsOperation ctx level := by
    rintro p s ⟨noOperator, operand⟩
    refine yields_readOperations sound ctx level g.limit s (operand.mono fun _ h => h.1) ?_
    intro operator _ inner same
    rw [noOperator] at same
    cases same
  unfold readOperation
  refine .skip fun t s₁ => ?_
  split
  · refine .skip fun _ _ => .bind (Q := fun p _ => p.IsLink) ?_ fun p s₂ link =>
      operations s₂ (Phrase.isOperand_of_isLink link)
    exact .skip fun _ _ => .skip fun _ _ => .skip fun _ _ => .skip fun _ _ => .skip fun _ _ =>
      .skip fun _ s₃ => yields_kept s₃ _ _
  · exact .bind (yields_readOperand sound ctx s₁) fun p s₂ => operations s₂

/-! ## Whole expressions -/

omit sound in
theorem Phrase.isWhole_of_isLink {p : Phrase} (link : p.IsLink) : p.IsWhole :=
  link.mono fun _ _ => trivial

omit sound in
theorem mem_assignmentMarks {t : Token} {mark : String} (found : assignmentMark? t = some mark) :
    mark ∈ assignmentMarks := by
  unfold assignmentMark? at found
  split at found
  · split at found <;> cases found
    simpa using ‹assignmentMarks.contains _ = true›
  · cases found

omit sound in
theorem yields_assignedTarget (mark : String) {stands : Place → Prop} {left : Phrase}
    (h : left.Sound stands) :
    Yields (assignedTarget mark left) s fun target _ => ∀ ctx, target.Grouped ctx := by
  have simple : ∀ {target : Target}, left.place = some target → ∀ s,
      Yields (pure target : Reader Target) s fun target _ => ∀ ctx, target.Grouped ctx :=
    fun place s => .pure fun ctx => h.target ctx _ place
  unfold assignedTarget takeTarget
  refine .ite (fun _ => ?_) fun _ => ?_
  · split
    · rename_i place
      exact simple place s
    · exact .skip fun _ _ => .skip fun _ _ => .pure fun _ => trivial
  · split
    · rename_i place
      exact simple place s
    · exact .failure

theorem yields_readAssigned {stands : Place → Prop} {left : Phrase} (h : left.Sound stands)
    {mark : String} (known : mark ∈ assignmentMarks) :
    Yields (readAssigned g ctx left mark) s fun p _ => p.IsWhole := by
  unfold readAssigned
  refine .bind (yields_assignedTarget s mark h) fun target _ grouped => .skip fun _ _ => ?_
  refine .bind (sound.assignment ctx _) fun right _ whole => .bind (yields_phraseFrom _ _ _) ?_
  rintro _ _ ⟨rfl, -⟩
  refine .pure ⟨?_, by simp, fun name => ?_⟩
  · exact fun ctx' _ isWhole => ⟨isWhole, known, grouped ctx', whole.grouped ctx' .whole rfl⟩
  · dsimp only
    split <;> simp

theorem yields_readBareArrow (start : Cursor) (isAsync : Bool) (parameter text : String) :
    Yields (readBareArrow g ctx start isAsync parameter text) s fun p _ => p.IsWhole :=
  .skip fun _ s₁ => yields_arrow sound ctx s₁ start isAsync _

theorem yields_readArrow? (isAsync : Bool) (parenthesis : Token) :
    Yields (readArrow? g ctx isAsync parenthesis) s fun arrow _ =>
      ∀ p, arrow = some p → p.IsWhole := by
  have arrow : ∀ start params s, Yields
      (do return some (← functionPhrase start (← readArrowBody g ctx isAsync params))) s
      fun arrow _ => ∀ p, arrow = some p → p.IsWhole := by
    intro start params s
    refine .bind (yields_readArrowBody sound ctx s isAsync params) fun scan s₁ isArrow => ?_
    exact .bind (yields_functionPhrase s₁ isArrow start) fun p _ whole => .found whole
  unfold readArrow?
  refine .skip fun t _ => ?_
  dsimp only
  split
  · exact .notFound
  · exact .skip fun _ s₁ => arrow _ _ s₁
  · refine .skip fun params s₁ => ?_
    split
    · exact .notFound
    · exact arrow _ _ s₁

theorem yields_readLeadingArrow? :
    Yields (readLeadingArrow? g ctx) s fun arrow _ => ∀ p, arrow = some p → p.IsWhole := by
  unfold readLeadingArrow?
  refine .skip fun t _ => .skip fun next s₁ => ?_
  refine .ite (fun _ => yields_readArrow? sound ctx s₁ false t) fun _ => ?_
  refine .ite (fun _ => ?_) fun _ => .notFound
  refine .ite (fun _ => yields_readArrow? sound ctx s₁ true next) fun _ => ?_
  refine .ite (fun _ => ?_) fun _ => .notFound
  refine .bind (Q := fun p _ => p.IsWhole) ?_ fun p _ whole => .found whole
  exact .skip fun _ _ => .skip fun _ _ => .skip fun _ _ => .skip fun _ _ => .skip fun _ s₂ =>
    yields_readBareArrow sound ctx s₂ _ true _ _

theorem yields_readTail {left : Phrase} (operation : left.IsOperation 0) :
    Yields (readTail g ctx left) s fun p _ => p.IsWhole := by
  have whole := Phrase.isWhole_of_isOperation operation
  unfold readTail
  refine .skip fun t s₁ => .ite (fun _ => ?_) fun _ => ?_
  · refine Yields.imp (Q := fun p _ => p.IsLink) ?_ fun _ _ => Phrase.isWhole_of_isLink
    exact .skip fun _ _ => .skip fun _ _ => .skip fun _ _ => .skip fun _ s₂ => yields_kept s₂ _ _
  · split
    · rename_i mark found
      exact yields_readAssigned sound ctx s₁ operation (mem_assignmentMarks found)
    · split
      · exact .ite (fun _ => yields_readBareArrow sound ctx s₁ _ false _ _) fun _ => .pure whole
      · exact .pure whole

omit sound in
theorem yields_readYield : Yields (readYield g ctx) s fun p _ => p.IsLink := by
  unfold readYield
  refine .skip fun t _ => .skip fun _ _ => .skip fun _ _ => .skip fun next s₁ => ?_
  refine .ite (fun _ => .skip fun _ _ => .skip fun _ s₂ => yields_kept s₂ _ _) fun _ => ?_
  exact .ite (fun _ => yields_kept s₁ _ _) fun _ => .skip fun _ s₂ => yields_kept s₂ _ _

theorem yields_readAssignment : Yields (readAssignment g ctx) s fun p _ => p.IsWhole := by
  unfold readAssignment
  refine .skip fun t _ => .skip fun next s₁ => .ite (fun _ => ?_) fun _ => ?_
  · exact (yields_readYield ctx s₁).imp fun _ _ => Phrase.isWhole_of_isLink
  · refine .bind (yields_readLeadingArrow? sound ctx s₁) fun arrow s₂ whole => ?_
    cases arrow with
    | some p => exact .pure (whole p rfl)
    | none =>
      exact .bind (yields_readOperation sound ctx s₂ 0) fun left s₃ h =>
        yields_readTail sound ctx s₃ h.1

/-! ## Declarations -/

omit sound in
theorem yields_readBinding : Yields (readBinding g ctx) s fun b _ => b.pattern.Binds ctx := by
  have apart : ∀ start parts s,
      Yields (destructuring start parts) s fun b _ => b.pattern.Binds ctx :=
    fun start parts s => .skip fun _ _ => .pure trivial
  unfold readBinding
  refine .skip fun t _ => .skip fun _ _ => .ite (fun _ => .skip fun _ _ => apart _ _ _) fun _ => ?_
  refine .skip fun _ _ => .ite (fun _ => .skip fun _ _ => apart _ _ _) fun _ => ?_
  exact .bind (yields_takeName ctx) fun name _ bindable => .pure bindable

omit sound in
theorem groupedAll_declarators {items : List DeclaratorScan}
    (each : ∀ d ∈ items, Declarator.GroupedAll ctx [d.tree]) :
    Declarator.GroupedAll ctx (items.map DeclaratorScan.tree) := by
  induction items with
  | nil => trivial
  | cons d rest ih =>
    have rest := ih fun d mem => each d (List.mem_cons_of_mem _ mem)
    have first := each d List.mem_cons_self
    obtain ⟨⟨pattern, _ | init⟩, mentions, names⟩ := d
    · exact ⟨first.1, rest⟩
    · exact ⟨first.1, first.2.1, rest⟩

theorem yields_readDeclarator :
    Yields (readDeclarator g ctx) s fun d _ => Declarator.GroupedAll ctx [d.tree] := by
  refine .bind (sound.binding ctx s) fun b _ binds => .skip fun _ _ =>
    .ite (fun _ => ?_) fun _ => ?_
  · refine .bind (sound.assignment ctx _) fun init _ whole => .pure ?_
    exact ⟨binds, whole.grouped ctx .whole rfl, trivial⟩
  · exact .pure ⟨binds, trivial⟩

theorem yields_readDeclarators :
    Yields (readDeclarators g ctx) s fun items _ =>
      items ≠ [] ∧ Declarator.GroupedAll ctx (items.map DeclaratorScan.tree) := by
  have more : ∀ s, Yields (declaratorItem g ctx) s fun next _ =>
      ∀ d, next = some d → Declarator.GroupedAll ctx [d.tree] := by
    intro s
    refine .skip fun _ _ => .ite (fun _ => ?_) fun _ => .notFound
    exact .bind (yields_readDeclarator sound ctx _) fun d _ grouped => .found grouped
  unfold readDeclarators
  refine .bind (yields_readDeclarator sound ctx s) fun first s₁ grouped => ?_
  refine .bind (.collect more g.limit s₁) fun rest _ each => .pure ⟨List.cons_ne_nil _ _, ?_⟩
  refine groupedAll_declarators ctx fun d mem => ?_
  rcases List.mem_cons.1 mem with rfl | mem
  · exact grouped
  · exact each d mem

/-! ## Statements -/

omit sound in
theorem Clause.sound_of_closed {isSingle : Bool} {c : Clause}
    (grouped : c.tree.Grouped ctx isSingle) (closed : c.tree.isOpen = false) :
    c.Sound ctx isSingle s :=
  ⟨grouped, fun isOpen => absurd (closed.symm.trans isOpen) Bool.false_ne_true⟩

omit sound in
/-- What may stand alone may stand among others. -/
theorem Statement.Grouped.among {ctx : Context} {t : Statement} (grouped : t.Grouped ctx true) :
    t.Grouped ctx false := by
  cases t with
  | declaration kind declarators => exact ⟨by simp, grouped.2⟩
  | function f =>
    obtain ⟨id, signature, body | value⟩ := f
    · obtain ⟨⟨noArrow, present, -⟩, rest⟩ := grouped
      exact ⟨⟨noArrow, present, by simp⟩, rest⟩
    · exact grouped
  | conditional test consequent alternate => cases alternate <;> exact grouped
  | result value => cases value <;> exact grouped
  | _ => exact grouped

section

variable (isSingle : Bool)

omit sound in
theorem yields_verbatimClause (start : Cursor) (mentions : List Mention) :
    Yields (verbatimClause start mentions) s (Clause.Sound ctx isSingle) :=
  .skip fun _ s₁ => .pure (Clause.sound_of_closed ctx s₁ trivial rfl)

theorem yields_readVariables {kind : DeclarationKind} (allowed : isSingle = true → kind = .var) :
    Yields (readVariables g ctx kind) s (Clause.Sound ctx isSingle) := by
  unfold readVariables readVariableItems
  refine .bind (Q := fun items _ => items ≠ [] ∧
    Declarator.GroupedAll ctx (items.map DeclaratorScan.tree) ∧
    items.all (DeclaratorScan.isComplete (kind == .constant)) = true) ?_ ?_
  · refine .skip fun _ _ => .bind (yields_readDeclarators sound ctx _) ?_
    rintro items _ ⟨some, grouped⟩
    refine .bind (.require _) fun _ _ ⟨complete, _⟩ => .skip fun _ _ => .pure ?_
    exact ⟨some, grouped, complete⟩
  · rintro items s₁ ⟨some, grouped, complete⟩
    refine .pure (Clause.sound_of_closed ctx s₁ ⟨allowed, ?_, ?_, grouped⟩ rfl)
    · simpa using some
    · rw [List.all_map]
      exact complete

omit sound in
theorem yields_endExpression {p : Phrase} (sequence : p.IsSequence) :
    Yields (endExpression p) s (Clause.Sound ctx isSingle) :=
  .skip fun _ s₁ =>
    .pure (Clause.sound_of_closed ctx s₁ (sequence.grouped ctx .sequence rfl) rfl)

theorem yields_readLet (t next : Token) :
    Yields (readLet g ctx isSingle t next) s (Clause.Sound ctx isSingle) := by
  unfold readLet
  split
  · exact .bind (sound.assignment _ s) fun p s₁ whole =>
      yields_endExpression ctx s₁ isSingle (Phrase.isSequence_of_isWhole whole)
  · exact .bind (yields_expression sound _ s) fun p s₁ => yields_endExpression ctx s₁ isSingle
  · refine .bind (yields_takeName ctx) fun name _ bindable => ?_
    refine .bind (yields_namePhrase (isNamed_of_isBindable bindable) _) fun p s₁ link => ?_
    exact yields_endExpression ctx s₁ isSingle (link.mono fun _ _ => trivial)
  · refine .bind (.require _) fun _ s₁ ⟨among, _⟩ => ?_
    refine yields_readVariables sound ctx s₁ isSingle fun single => ?_
    rw [single] at among
    cases among

theorem yields_readExpressionStatement :
    Yields (readExpressionStatement g ctx) s (Clause.Sound ctx isSingle) := by
  unfold readExpressionStatement
  refine .bind (yields_expression sound _ s) fun p _ sequence => .skip fun isLabel s₁ => ?_
  have grouped := sequence.grouped ctx .sequence rfl
  split
  · rename_i label form
    rw [sequence.named label form] at grouped
    refine .skip fun _ _ => .bind (sound.statement ctx true _) fun body s₂ clause => .pure ?_
    exact ⟨⟨grouped, clause.grouped⟩, clause.closed⟩
  · exact .skip fun _ s₂ => .pure (Clause.sound_of_closed ctx s₂ grouped rfl)

theorem yields_readIf : Yields (readIf g ctx) s (Clause.Sound ctx isSingle) := by
  have head : ∀ s, Yields (readHead g ctx) s fun p _ => p.IsSequence := fun s =>
    .skip fun _ _ => .bind (yields_expression sound _ _) fun p _ sequence => .skip fun _ _ =>
      .pure sequence
  unfold readIf
  refine .skip fun _ _ => .bind (head _) fun test _ sequence => ?_
  have tested := sequence.grouped ctx .sequence rfl
  refine .bind (sound.statement ctx true _) fun consequent s₁ clause => ?_
  refine .bind (.acceptWord "else") fun taken s₂ ⟨eq, left⟩ =>
    .ite (fun isTaken => ?_) fun notTaken => .pure ?_
  · -- the consequent would have taken the `else` itself
    have shut : consequent.tree.isOpen = false := by
      cases isOpen : consequent.tree.isOpen with
      | false => rfl
      | true => exact absurd (isTaken.symm.trans (eq.trans (clause.closed isOpen))) (by simp)
    refine .bind (sound.statement ctx true _) fun alternate s₃ clause' => .pure ?_
    exact ⟨⟨tested, clause.grouped.among, shut, clause'.grouped.among⟩, clause'.closed⟩
  · rw [Bool.not_eq_true] at notTaken
    obtain rfl := left notTaken
    exact ⟨⟨tested, clause.grouped.among⟩, fun _ => eq.symm.trans notTaken⟩

theorem yields_readReturn : Yields (readReturn g ctx) s (Clause.Sound ctx isSingle) := by
  unfold readReturn
  refine .bind (.require _) fun _ _ ⟨returns, _⟩ => .skip fun _ _ => .skip fun t _ => ?_
  refine .ite (fun _ => .skip fun _ s₁ => .pure (Clause.sound_of_closed ctx s₁ returns rfl))
    fun _ => ?_
  refine .bind (yields_expression sound _ _) fun value _ sequence => .skip fun _ s₁ => .pure ?_
  exact Clause.sound_of_closed ctx s₁ ⟨returns, sequence.grouped ctx .sequence rfl⟩ rfl

theorem yields_readFunctionStatement :
    Yields (readFunctionStatement g ctx isSingle) s (Clause.Sound ctx isSingle) := by
  unfold readFunctionStatement readFunctionDeclaration
  refine .bind (Q := fun scan _ => ∃ isAsync, scan.Sound (fun _ _ => ctx) true isAsync) ?_ ?_
  · exact .skip fun isAsync s₁ =>
      (yields_readFunction sound s₁ _ true isAsync).imp fun _ _ sound => ⟨isAsync, sound⟩
  · rintro scan s₁ ⟨isAsync, name, isGenerator, params, names, body, eq, bindable, present, grouped⟩
    refine .bind (.require _) fun _ s₂ ⟨plain, _⟩ => .pure (Clause.sound_of_closed ctx s₂ ?_ rfl)
    rw [eq] at plain ⊢
    refine ⟨⟨rfl, present rfl, fun single => ?_⟩, bindable, grouped⟩
    simpa [single] using plain

omit sound in
/-- The statements that are kept as their text end with keeping it, whatever is read before. -/
theorem yields_verbatimStatement? {word : String} {reader : Reader Clause}
    (found : verbatimStatement? g ctx word = some reader) :
    Yields reader s (Clause.Sound ctx isSingle) := by
  unfold verbatimStatement? at found
  split at found
  all_goals
    cases found
    repeat' first
      | exact yields_verbatimClause ctx _ isSingle _ _
      | refine Yields.skip fun _ _ => ?_
      | refine Yields.ite (fun _ => ?_) fun _ => ?_

omit sound in
theorem yields_exportClause (start : Cursor) (exported : List String) (mentions : List Mention) :
    Yields (exportClause start exported mentions) s (Clause.Sound ctx isSingle) :=
  .bind (yields_verbatimClause ctx s isSingle start mentions) fun _ _ clause =>
    .pure ⟨clause.grouped, clause.closed⟩

omit sound in
theorem yields_readExport (decorators : List (List Mention)) :
    Yields (readExport g ctx decorators) s (Clause.Sound ctx isSingle) := by
  unfold readExport readExportList readExportAll readExportDefault readExportedDeclaration
  repeat' first
    | exact yields_exportClause ctx _ isSingle _ _ _
    | exact yields_verbatimClause ctx _ isSingle _ _
    | refine Yields.skip fun _ _ => ?_
    | refine Yields.ite (fun _ => ?_) fun _ => ?_
    | split

theorem yields_declaration? {t next : Token} {reader : Reader Clause}
    (found : declaration? g ctx isSingle t next = some reader) :
    Yields reader s (Clause.Sound ctx isSingle) := by
  unfold declaration? at found
  split at found
  · cases found
  · cases found
    exact yields_readVariables sound ctx s isSingle fun _ => rfl
  · cases found
    refine .ite (fun _ => .failure) fun among => ?_
    exact yields_readVariables sound ctx s isSingle fun single => absurd single among
  · split at found <;> cases found
    exact yields_readLet sound ctx s isSingle t next

omit sound in
theorem yields_readResources (start : Cursor) :
    Yields (readResources g ctx start) s (Clause.Sound ctx isSingle) :=
  .skip fun _ _ => .skip fun _ _ => .skip fun _ s₁ => yields_verbatimClause ctx s₁ isSingle _ _

theorem yields_readWordStatement (t next : Token) (word : String) :
    Yields (readWordStatement g ctx isSingle t next word) s (Clause.Sound ctx isSingle) := by
  unfold readWordStatement
  split
  · rename_i found
    exact yields_verbatimStatement? ctx s isSingle found
  · rename_i found
    exact yields_declaration? sound ctx s isSingle found
  · refine .ite (fun _ => yields_readIf sound ctx s isSingle) fun _ => ?_
    refine .ite (fun _ => yields_readReturn sound ctx s isSingle) fun _ => ?_
    refine .ite (fun _ => yields_readFunctionStatement sound ctx s isSingle) fun _ => ?_
    refine .ite (fun _ => ?_) fun _ => .ite (fun _ => ?_) fun _ => ?_
    · exact .skip fun _ _ => .skip fun _ s₁ => yields_verbatimClause ctx s₁ isSingle _ _
    · exact .skip fun _ _ => .skip fun _ _ => .skip fun _ _ => .skip fun _ s₁ =>
        yields_verbatimClause ctx s₁ isSingle _ _
    refine .ite (fun _ => yields_readExport ctx s isSingle []) fun _ => ?_
    refine .ite (fun _ => .skip fun _ s₁ => yields_readResources ctx s₁ isSingle _) fun _ => ?_
    refine .ite (fun _ => ?_) fun _ => yields_readExpressionStatement sound ctx s isSingle
    exact .skip fun _ _ => .skip fun _ s₁ => yields_readResources ctx s₁ isSingle _

theorem yields_readStatement :
    Yields (readStatement g ctx isSingle) s (Clause.Sound ctx isSingle) := by
  unfold readStatement
  refine .skip fun t _ => .skip fun next s₁ => ?_
  split
  · refine .bind (yields_readBlock sound ctx s₁) fun body s₂ grouped => .pure ?_
    exact Clause.sound_of_closed ctx s₂ (groupedAll_clauses grouped) rfl
  · exact .skip fun _ s₂ => yields_verbatimClause ctx s₂ isSingle _ _
  · refine .skip fun _ _ => .skip fun decorators _ => .skip fun _ s₂ =>
      .ite (fun _ => ?_) fun _ => ?_
    · exact yields_readExport ctx s₂ isSingle decorators
    · exact .skip fun _ _ => .skip fun _ s₃ => yields_verbatimClause ctx s₃ isSingle _ _
  · exact yields_readWordStatement sound ctx s₁ isSingle t next _
  · exact yields_readExpressionStatement sound ctx s₁ isSingle

end

end

/-! ## Programs -/

theorem grammar_sound (depth : Nat) : (grammar depth).Sound := by
  induction depth with
  | zero => exact Grammar.sound_exhausted
  | succ depth sound =>
    exact ⟨yields_readAssignment sound, fun ctx level s => yields_readOperation sound ctx s level,
      yields_readOperand sound, fun ctx s => yields_readConstruction ctx s,
      fun ctx s => yields_readBinding ctx s,
      fun ctx isSingle s => yields_readStatement sound ctx s isSingle⟩

theorem yields_readItems {g : Grammar} (sound : g.Sound) (s : ReaderState) :
    Yields (readItems g) s fun items _ =>
      ∀ item ∈ items, item.clause.tree.Grouped .topLevel false := by
  refine .bind (.collect (fun s => ?_) g.limit s) fun items _ grouped =>
    .skip fun _ _ => .pure grouped
  refine .skip fun t _ => .ite (fun _ => .notFound) fun _ => ?_
  exact .bind (sound.statement .topLevel false _) fun c _ clause => .skip fun _ _ =>
    .found clause.grouped

/-- **What is read is grouped.** -/
theorem groupedAll_of_read {text : List Char} {program : List Statement}
    (read : readProgram? text = some program) : Statement.GroupedAll .topLevel program := by
  unfold readProgram? runReader at read
  obtain ⟨items, ran, rfl⟩ := Option.map_eq_some_iff.1 read
  split at ran
  · rename_i _ s run
    split at ran <;> cases ran
    have grouped := yields_readItems (grammar_sound _) _ items s run
    refine Statement.groupedAll_of_forall fun t mem => ?_
    -- the directives at the start are kept as their text
    rcases List.mem_append.1 mem with mem | mem
    · obtain ⟨item, -, rfl⟩ := List.mem_map.1 mem
      trivial
    · obtain ⟨item, kept, rfl⟩ := List.mem_map.1 mem
      exact grouped item ((List.dropWhile_sublist _).subset kept)
  · cases ran

end ReactiveMarkup.Script
