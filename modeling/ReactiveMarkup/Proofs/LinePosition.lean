import Mathlib.Data.List.Induction
import Mathlib.Data.List.TakeWhile
import ReactiveMarkup.Text.Position

/-!
# Lines and columns tell offsets apart

One more character leads to a later position: a line feed to the next line, any other character to
the next column (`before_snoc`). So positions follow each other as the offsets between characters
do, and a position belongs to one of them only (`positionAt_ordersOffsets`).

Positions are counted here in characters. `scanPosition?` finds them in the bytes of the text
instead, by counting line feeds and by searching backwards for the last of them. That gives the same
since no character but the line feed has the byte of a line feed in its UTF-8 form
(`lineFeed_mem_encoded_iff`).
-/

namespace ReactiveMarkup.Text

/-- Whether an offset falls between two characters of a text or at one of its ends. -/
def IsBoundary (text : List Char) (offset : Nat) : Prop :=
  ∃ before after, text = before ++ after ∧ byteSize before = offset

/-- Whether a position is on an earlier line than another one or further left on the same line. -/
def Position.Before (p q : Position) : Prop :=
  p.line < q.line ∨ p.line = q.line ∧ p.column < q.column

theorem Position.Before.trans {p q r : Position} (first : p.Before q) (second : q.Before r) :
    p.Before r := by
  unfold Before at *
  omega

theorem Position.not_before_self (p : Position) : ¬ p.Before p := by
  unfold Before
  omega

/-! ## Counting in characters -/

theorem endPosition_lineFeed (text : List Char) :
    endPosition (text ++ ['\n']) = ⟨(endPosition text).line + 1, 1⟩ := by
  simp [endPosition]

theorem endPosition_snoc (text : List Char) {c : Char} (inside : c ≠ '\n') :
    endPosition (text ++ [c]) = ⟨(endPosition text).line, (endPosition text).column + 1⟩ := by
  simp [endPosition, inside]

/-- One more character leads to a later position. -/
theorem before_snoc (text : List Char) (c : Char) :
    (endPosition text).Before (endPosition (text ++ [c])) := by
  by_cases ends : c = '\n'
  · subst ends
    rw [endPosition_lineFeed]
    exact .inl (Nat.lt_succ_self _)
  · rw [endPosition_snoc text ends]
    exact .inr ⟨rfl, Nat.lt_succ_self _⟩

theorem before_append (text : List Char) {more : List Char} (ne : more ≠ []) :
    (endPosition text).Before (endPosition (text ++ more)) := by
  induction more generalizing text with
  | nil => exact absurd rfl ne
  | cons c rest ih =>
    have step := before_snoc text c
    by_cases last : rest = []
    · subst last
      exact step
    · rw [List.append_cons]
      exact step.trans (ih (text ++ [c]) last)

/-- A text is what stands up to the last line feed and what stands behind it. -/
theorem exists_lastLine (text : List Char) :
    ∃ earlier current, text = earlier ++ current ∧ (earlier = [] ∨ earlier.getLast? = some '\n') ∧
      '\n' ∉ current ∧ (endPosition text).column = current.length + 1 := by
  refine ⟨(text.reverse.dropWhile (· ≠ '\n')).reverse, (text.reverse.takeWhile (· ≠ '\n')).reverse,
    ?_, ?_, ?_, ?_⟩
  · rw [← List.reverse_append, List.takeWhile_append_dropWhile, List.reverse_reverse]
  · rw [List.reverse_eq_nil_iff, List.getLast?_reverse]
    cases found : text.reverse.dropWhile (· ≠ '\n') with
    | nil => exact .inl rfl
    | cons c rest =>
      have stopped := List.head?_dropWhile_not (fun c => decide (c ≠ '\n')) text.reverse
      rw [found] at stopped
      exact .inr (by simpa using stopped)
  · intro mem
    have holds := List.mem_takeWhile_imp (List.mem_reverse.1 mem)
    simp at holds
  · rw [List.length_reverse]
    rfl

/-- Neither the line nor the column exceeds the number of bytes by more than one. -/
theorem line_add_column_le (text : List Char) :
    (endPosition text).line + (endPosition text).column ≤ byteSize text + 2 := by
  induction text using List.reverseRecOn with
  | nil => simp [endPosition]
  | append_singleton text c ih =>
    have size := c.utf8Size_pos
    have column : 1 ≤ (endPosition text).column := Nat.le_add_left 1 _
    rw [byteSize_append, byteSize_cons, byteSize_nil]
    by_cases ends : c = '\n'
    · subst ends
      rw [endPosition_lineFeed]
      dsimp only
      omega
    · rw [endPosition_snoc text ends]
      dsimp only
      omega

/-! ## Boundaries -/

theorem positionAt_boundary (before after : List Char) :
    positionAt (before ++ after) (byteSize before) = endPosition before := by
  rw [positionAt, takeBytes_byteSize_append, takeBytes_zero, List.append_nil]

theorem takeBytes_of_le {text : List Char} {offset : Nat} (beyond : byteSize text ≤ offset) :
    takeBytes offset text = text := by
  induction text generalizing offset with
  | nil => rfl
  | cons c rest ih =>
    rw [byteSize_cons] at beyond
    rw [takeBytes, if_pos (by omega), ih (by omega)]

theorem positionAt_of_le {text : List Char} {offset : Nat} (beyond : byteSize text ≤ offset) :
    positionAt text offset = endPosition text := by
  rw [positionAt, takeBytes_of_le beyond]

/-- Of two leading parts of a text, the one of more bytes goes on behind the other one. -/
theorem exists_between {s t u v : List Char} (same : s ++ u = t ++ v)
    (less : byteSize s < byteSize t) : ∃ more, more ≠ [] ∧ t = s ++ more := by
  rcases List.append_eq_append_iff.1 same with ⟨more, rfl, -⟩ | ⟨more, rfl, -⟩
  · refine ⟨more, ?_, rfl⟩
    rintro rfl
    simp at less
  · rw [byteSize_append] at less
    omega

theorem before_of_lt {text : List Char} {a b : Nat} (boundary_a : IsBoundary text a)
    (boundary_b : IsBoundary text b) (less : a < b) :
    (positionAt text a).Before (positionAt text b) := by
  obtain ⟨s, u, rfl, rfl⟩ := boundary_a
  obtain ⟨t, v, same, rfl⟩ := boundary_b
  -- both lead up to their offsets in one text, so the longer one goes on behind the other one
  obtain ⟨more, ne, rfl⟩ := exists_between same less
  rw [positionAt_boundary, same, positionAt_boundary]
  exact before_append s ne

/-! ## Counting in bytes -/

/-- The bytes of the UTF-8 form of a text. -/
def utf8 (text : List Char) : List UInt8 := text.flatMap String.utf8EncodeChar

/-- The byte of a line feed. -/
def lineFeed : UInt8 := 10

/-- The offset behind the last line feed among some bytes, which is searched from their end. -/
def lineStart (bytes : List UInt8) : Nat :=
  bytes.length - (bytes.reverse.takeWhile (· ≠ lineFeed)).length

/-- The text between two offsets, provided that both are boundaries. -/
def slice? (text : List Char) (first last : Nat) : Option (List Char) := do
  let behind ← dropBytes? first text
  let _ ← dropBytes? (last - first) behind
  some (takeBytes (last - first) behind)

/-- The position of a byte offset as it is found in the bytes of a text. -/
def scanPosition? (text : List Char) (offset : Nat) : Option Position := do
  let stop := min offset (byteSize text)
  let bytes := (utf8 text).take stop
  let line ← slice? text (lineStart bytes) stop
  some ⟨bytes.count lineFeed + 1, line.length + 1⟩

theorem utf8_append (s t : List Char) : utf8 (s ++ t) = utf8 s ++ utf8 t := List.flatMap_append

theorem length_utf8 (text : List Char) : (utf8 text).length = byteSize text := by
  induction text with
  | nil => rfl
  | cons c rest ih =>
    rw [utf8, List.flatMap_cons, List.length_append, String.length_utf8EncodeChar, byteSize_cons]
    exact congrArg (c.utf8Size + ·) ih

/-- Each byte of a longer form has its highest bit set. -/
theorem le_of_mem_encoded {c : Char} (long : 0x7F < c.val.toNat) {b : UInt8}
    (mem : b ∈ String.utf8EncodeChar c) : 0x80 ≤ b.toNat := by
  unfold String.utf8EncodeChar at mem
  dsimp only at mem
  rw [if_neg (by omega)] at mem
  split at mem
  · simp only [List.mem_cons, List.not_mem_nil, or_false] at mem
    rcases mem with rfl | rfl <;> rw [UInt8.toNat_ofNat'] <;> omega
  · split at mem
    · simp only [List.mem_cons, List.not_mem_nil, or_false] at mem
      rcases mem with rfl | rfl | rfl <;> rw [UInt8.toNat_ofNat'] <;> omega
    · simp only [List.mem_cons, List.not_mem_nil, or_false] at mem
      rcases mem with rfl | rfl | rfl | rfl <;> rw [UInt8.toNat_ofNat'] <;> omega

theorem lineFeed_not_mem_encoded {c : Char} (other : c ≠ '\n') :
    lineFeed ∉ String.utf8EncodeChar c := by
  intro mem
  by_cases long : 0x7F < c.val.toNat
  · exact absurd (le_of_mem_encoded long mem) (by decide)
  · rw [String.utf8EncodeChar, if_pos (by omega), List.mem_singleton] at mem
    have value := congrArg UInt8.toNat mem
    rw [UInt8.toNat_ofNat', Nat.mod_eq_of_lt (by omega)] at value
    exact other (Char.ext (UInt32.toNat_inj.1 value.symm))

theorem count_lineFeed_utf8 (text : List Char) :
    (utf8 text).count lineFeed = text.count '\n' := by
  induction text with
  | nil => rfl
  | cons c rest ih =>
    rw [utf8, List.flatMap_cons, List.count_append, List.count_cons]
    by_cases ends : c = '\n'
    · subst ends
      rw [if_pos (by decide), Nat.add_comm]
      exact congrArg (· + 1) ih
    · rw [List.count_eq_zero.2 (lineFeed_not_mem_encoded ends), if_neg (by simpa using ends),
        Nat.zero_add]
      exact ih

theorem lineFeed_not_mem_utf8 {text : List Char} (inside : '\n' ∉ text) :
    lineFeed ∉ utf8 text := by
  rw [← List.count_eq_zero, count_lineFeed_utf8]
  exact List.count_eq_zero.2 inside

theorem lineStart_utf8 {earlier current : List Char}
    (ends : earlier = [] ∨ earlier.getLast? = some '\n') (inside : '\n' ∉ current) :
    lineStart (utf8 (earlier ++ current)) = byteSize earlier := by
  have passed : ∀ b ∈ (utf8 current).reverse, decide (b ≠ lineFeed) = true := by
    intro b mem
    rw [List.mem_reverse] at mem
    exact decide_eq_true fun same => lineFeed_not_mem_utf8 inside (same ▸ mem)
  have stops : (utf8 earlier).reverse.takeWhile (· ≠ lineFeed) = [] := by
    rcases ends with rfl | last
    · rfl
    · obtain ⟨lines, rfl⟩ := List.getLast?_eq_some_iff.1 last
      rw [utf8_append, List.reverse_append]
      rfl
  have found : (utf8 (earlier ++ current)).reverse.takeWhile (· ≠ lineFeed) =
      (utf8 current).reverse := by
    rw [utf8_append, List.reverse_append, List.takeWhile_append_of_pos passed, stops,
      List.append_nil]
  rw [lineStart, found, List.length_reverse, length_utf8, length_utf8, byteSize_append]
  omega

theorem slice?_append (first second third : List Char) :
    slice? (first ++ second ++ third) (byteSize first) (byteSize (first ++ second)) =
      some second := by
  have between : byteSize (first ++ second) - byteSize first = byteSize second := by
    rw [byteSize_append]
    omega
  rw [slice?, between, List.append_assoc, dropBytes?_byteSize_append]
  simp [dropBytes?_byteSize_append, takeBytes_byteSize_append, takeBytes_zero]

/-- The bytes give the position that the characters give. -/
theorem scanPosition?_boundary (before after : List Char) :
    scanPosition? (before ++ after) (byteSize before) = some (endPosition before) := by
  obtain ⟨earlier, current, rfl, ends, inside, column⟩ := exists_lastLine before
  have stop : min (byteSize (earlier ++ current)) (byteSize (earlier ++ current ++ after)) =
      byteSize (earlier ++ current) := by
    rw [byteSize_append _ after]
    omega
  have bytes : (utf8 (earlier ++ current ++ after)).take (byteSize (earlier ++ current)) =
      utf8 (earlier ++ current) := by
    rw [utf8_append _ after, ← length_utf8, List.take_left]
  rw [scanPosition?]
  simp only [stop, bytes, lineStart_utf8 ends inside, slice?_append, count_lineFeed_utf8,
    ← column, Option.bind_eq_bind, Option.bind_some]
  rfl

theorem scanPosition?_of_le {text : List Char} {offset : Nat} (beyond : byteSize text ≤ offset) :
    scanPosition? text offset = some (endPosition text) := by
  have ends := scanPosition?_boundary text []
  rw [List.append_nil] at ends
  rw [← ends, scanPosition?, scanPosition?, Nat.min_eq_right beyond, Nat.min_self]

/-! ## Both together -/

/-- **Positions are ordered as the offsets between characters are.** The line of such an offset is
one plus the number of line feeds before it and its column one plus the number of characters behind
the last of them; an earlier offset has an earlier position, so that a position belongs to one
offset; every offset beyond the text has the position of its end. The search in the bytes of the
text finds all these positions, and none is larger than the offset allows. -/
theorem positionAt_ordersOffsets (text : List Char) :
    (∀ before after, text = before ++ after →
      (positionAt text (byteSize before)).line = before.count '\n' + 1 ∧
        ∃ earlier current, before = earlier ++ current ∧
          (earlier = [] ∨ earlier.getLast? = some '\n') ∧ '\n' ∉ current ∧
          (positionAt text (byteSize before)).column = current.length + 1) ∧
      (∀ a b, IsBoundary text a → IsBoundary text b →
        (a < b ↔ (positionAt text a).Before (positionAt text b)) ∧
          (positionAt text a = positionAt text b ↔ a = b)) ∧
      (∀ offset, byteSize text ≤ offset → positionAt text offset = endPosition text) ∧
      ∀ offset, IsBoundary text offset ∨ byteSize text ≤ offset →
        scanPosition? text offset = some (positionAt text offset) ∧
          (positionAt text offset).line + (positionAt text offset).column ≤ offset + 2 := by
  refine ⟨?_, ?_, fun _ => positionAt_of_le, ?_⟩
  · rintro before after rfl
    rw [positionAt_boundary]
    exact ⟨rfl, exists_lastLine before⟩
  · intro a b boundary_a boundary_b
    -- an earlier offset has an earlier position, and no position is before itself
    rcases Nat.lt_trichotomy a b with less | rfl | less
    · have before := before_of_lt boundary_a boundary_b less
      refine ⟨iff_of_true less before, iff_of_false (fun same => ?_) (Nat.ne_of_lt less)⟩
      exact Position.not_before_self _ (same ▸ before)
    · exact ⟨iff_of_false (Nat.lt_irrefl a) (Position.not_before_self _), iff_of_true rfl rfl⟩
    · have after := before_of_lt boundary_b boundary_a less
      refine ⟨iff_of_false (Nat.lt_asymm less) fun before => ?_,
        iff_of_false (fun same => ?_) (Nat.ne_of_gt less)⟩
      · exact Position.not_before_self _ (before.trans after)
      · exact Position.not_before_self _ (same ▸ after)
  · rintro offset (⟨before, after, rfl, rfl⟩ | beyond)
    · rw [scanPosition?_boundary, positionAt_boundary]
      exact ⟨rfl, line_add_column_le before⟩
    · rw [scanPosition?_of_le beyond, positionAt_of_le beyond]
      exact ⟨rfl, (line_add_column_le text).trans (Nat.add_le_add_right beyond 2)⟩

/-- The characters before the offsets have two, one and four bytes. -/
example : [2, 3, 7, 9].map (positionAt ['é', '\n', '😀', 'x']) =
    [⟨1, 2⟩, ⟨2, 1⟩, ⟨2, 2⟩, ⟨2, 3⟩] := by decide

end ReactiveMarkup.Text
