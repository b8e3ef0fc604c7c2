import ReactiveMarkup.Proofs.PrintedTokens

/-!
# Runs of readers over printed text

A reader that has come to a text is in a state that is known from the text (`facing`), except for
the notes it has made. The lemmas here run the steps that all readers are made of from such a state.
-/

namespace ReactiveMarkup.Script

namespace Reader

variable {α β : Type}

theorem run_bind (x : Reader α) (f : α → Reader β) (s : ReaderState) :
    (x >>= f) s = (x s).bind fun r => f r.1 r.2 := rfl

theorem run_bind_of {x : Reader α} {s s' : ReaderState} {a : α} (h : x s = some (a, s'))
    (f : α → Reader β) : (x >>= f) s = f a s' := by
  rw [run_bind, h, Option.bind_some]

theorem bind_eq_some_iff {x : Reader α} {f : α → Reader β} {s : ReaderState}
    {r : β × ReaderState} :
    (x >>= f) s = some r ↔ ∃ a s', x s = some (a, s') ∧ f a s' = some r := by
  rw [run_bind, Option.bind_eq_some_iff]
  exact ⟨fun ⟨⟨a, s'⟩, first, second⟩ => ⟨a, s', first, second⟩,
    fun ⟨a, s', first, second⟩ => ⟨(a, s'), first, second⟩⟩

theorem run_pure (a : α) (s : ReaderState) : (pure a : Reader α) s = some (a, s) := rfl

theorem run_ite (c : Prop) [Decidable c] (x y : Reader α) (s : ReaderState) :
    (if c then x else y) s = if c then x s else y s := by
  split <;> rfl

theorem run_current (s : ReaderState) : current s = some (s.token, s) := rfl

theorem run_following (s : ReaderState) : following s = some (scanToken s.token.stop, s) := rfl

theorem run_lastStop (s : ReaderState) : lastStop s = some (s.last, s) := rfl

theorem run_at? (mark : String) (s : ReaderState) :
    at? mark s = some (s.token.isPunctuator mark, s) := rfl

theorem run_atWord? (word : String) (s : ReaderState) :
    atWord? word s = some (s.token.isWord word, s) := rfl

theorem run_require (condition : Bool) (s : ReaderState) :
    require condition s = if condition then some ((), s) else none := by
  cases condition <;> rfl

theorem run_attempt (x : Reader α) (s : ReaderState) :
    attempt x s = match x s with
      | some (value, s) => some (some value, s)
      | none => some (none, s) := rfl

theorem run_accept_of_not {mark : String} {s : ReaderState}
    (other : s.token.isPunctuator mark = false) : accept mark s = some (false, s) := by
  simp only [accept, run_bind, run_at?, run_ite, other, Option.bind_some, Bool.false_eq_true,
    if_false, run_pure]

theorem run_expect_of_not {mark : String} {s : ReaderState}
    (other : s.token.isPunctuator mark = false) : expect mark s = none := by
  simp only [expect, run_bind, run_accept_of_not other, Option.bind_some, run_require,
    Bool.false_eq_true, if_false]

theorem run_acceptWord_of_not {word : String} {s : ReaderState}
    (other : s.token.isWord word = false) : acceptWord word s = some (false, s) := by
  simp only [acceptWord, run_bind, run_atWord?, run_ite, other, Option.bind_some,
    Bool.false_eq_true, if_false, run_pure]

end Reader

open Reader

theorem Token.isWord_of_punctuator {t : Token} {mark : String} (kind : t.kind = .punctuator mark)
    (word : String) : t.isWord word = false := by
  simp [Token.isWord, kind]

/-! ## Readers that face a text -/

/-- What a reader has noted. -/
structure Notes where
  covers : Nat
  flawed : Bool

/-- A reader that has come to the end `text` of a script of `total` characters. -/
def facing (total : Nat) (notes : Notes) (text : List Char) : ReaderState :=
  ⟨scanToken (.before total text), total - text.length, notes.covers, notes.flawed,
    isSpelled_scanToken _⟩

/-- Which token a text starts with, where it starts, what follows it, and whether a line ends
before it. -/
def Shows (text : List Char) (kind : TokenKind) (start rest : List Char) (newLine : Bool) : Prop :=
  ∀ total, text.length ≤ total →
    scanToken (.before total text) = ⟨kind, .before total start, .before total rest, newLine⟩

section

variable {gap rest : List Char}

theorem MarkAt.shows {mark : String} (mark_at : MarkAt mark rest) (blank : Blank gap) :
    Shows (gap ++ (mark.toList ++ rest)) (.punctuator mark) (mark.toList ++ rest) rest
      (gap.contains '\n') :=
  fun _ room => mark_at.scanToken blank room

theorem shows_word {word : String} (spelled : isSpelled word = true) (ends : endsName rest = true)
    (blank : Blank gap) :
    Shows (gap ++ (word.toList ++ rest)) (.word word false) (word.toList ++ rest) rest
      (gap.contains '\n') :=
  fun _ room => scanToken_word spelled ends blank room

/-- The marks of one character that are tokens whatever follows them. -/
theorem shows_closed (mark : String) (c : Char) (known : mark ∈ closedMarks)
    (spelling : mark.toList = [c]) (blank : Blank gap) :
    Shows (gap ++ c :: rest) (.punctuator mark) (c :: rest) rest (gap.contains '\n') := by
  have h := (markAt_closed known rest).shows blank
  rwa [spelling] at h

/-- Such a mark at once. -/
theorem shows_next (mark : String) (c : Char) (known : mark ∈ closedMarks)
    (spelling : mark.toList = [c]) (rest : List Char) :
    Shows (c :: rest) (.punctuator mark) (c :: rest) rest false :=
  shows_closed mark c known spelling Blank.nil

end

/-- Which token a text starts with at once, and what follows it, whatever blanks come before. -/
def Opens (text : List Char) (kind : TokenKind) (rest : List Char) : Prop :=
  ∀ gap, Blank gap → Shows (gap ++ text) kind text rest (gap.contains '\n')

theorem opens_word {word : String} {rest : List Char} (spelled : isSpelled word = true)
    (ends : endsName rest = true) : Opens (word.toList ++ rest) (.word word false) rest :=
  fun _ blank => shows_word spelled ends blank

theorem opens_closed (mark : String) (c : Char) (known : mark ∈ closedMarks)
    (spelling : mark.toList = [c]) (rest : List Char) :
    Opens (c :: rest) (.punctuator mark) rest :=
  fun _ blank => shows_closed mark c known spelling blank

theorem opens_mark {mark : String} {rest : List Char} (mark_at : MarkAt mark rest) :
    Opens (mark.toList ++ rest) (.punctuator mark) rest :=
  fun _ blank => mark_at.shows blank

section

variable {total : Nat} {notes : Notes} {text start rest : List Char} {kind : TokenKind}
  {newLine : Bool} (h : Shows text kind start rest newLine) (room : text.length ≤ total)
include h room

theorem Shows.token (notes : Notes) : (facing total notes text).token =
    ⟨kind, .before total start, .before total rest, newLine⟩ := h total room

theorem Shows.following :
    following (facing total notes text) =
      some ((facing total notes rest).token, facing total notes text) := by
  rw [run_following, h.token room]
  rfl

theorem Shows.advance :
    advance (facing total notes text) = some ((), facing total notes rest) := by
  have stop : (scanToken (.before total text)).stop = .before total rest := by
    rw [h total room]
  show some ((), (_ : ReaderState)) = _
  simp only [facing, stop]
  rfl

theorem Shows.accept {mark : String} (is_mark : kind = .punctuator mark) :
    accept mark (facing total notes text) = some (true, facing total notes rest) := by
  have present : (facing total notes text).token.isPunctuator mark = true := by
    rw [h.token room, Token.isPunctuator, is_mark, beq_self_eq_true]
  simp only [Reader.accept, run_bind, run_at?, run_ite, present, Option.bind_some, if_true,
    h.advance room, run_pure]

theorem Shows.expect {mark : String} (is_mark : kind = .punctuator mark) :
    expect mark (facing total notes text) = some ((), facing total notes rest) := by
  simp only [Reader.expect, run_bind, h.accept room is_mark, Option.bind_some, run_require,
    if_true]

theorem Shows.takeKeyword (plain : (⟨kind, .before total start, .before total rest, newLine⟩ :
    Token).isEscaped = false) :
    takeKeyword (facing total notes text) = some ((), facing total notes rest) := by
  simp only [Reader.takeKeyword, run_bind, run_current, Option.bind_some, h.token room, plain,
    Bool.false_eq_true, if_false, h.advance room]

theorem Shows.acceptWord {word : String} (is_word : kind = .word word false) :
    acceptWord word (facing total notes text) = some (true, facing total notes rest) := by
  have present : (facing total notes text).token.isWord word = true := by
    simp [h.token room, Token.isWord, is_word]
  have plain : (⟨kind, .before total start, .before total rest, newLine⟩ :
      Token).isEscaped = false := by
    rw [Token.isEscaped, is_word]
  simp only [Reader.acceptWord, run_bind, run_atWord?, run_ite, present, Option.bind_some, if_true,
    h.takeKeyword room plain, run_pure]

theorem Shows.expectWord {word : String} (is_word : kind = .word word false) :
    expectWord word (facing total notes text) = some ((), facing total notes rest) := by
  simp only [Reader.expectWord, run_bind, h.acceptWord room is_word, Option.bind_some,
    run_require, if_true]

end

end ReactiveMarkup.Script
