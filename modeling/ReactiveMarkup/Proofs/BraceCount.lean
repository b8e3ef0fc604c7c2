import ReactiveMarkup.Proofs.BalancedBraces

/-!
# Matching braces by counting

The braces that are open need not be kept one by one. It is enough to count them, and to save the
count at the start of each substitution: when a closing brace brings the count back to the one saved
last, it ends that substitution. This scan finds the same brace as the one that keeps the open
braces (`stop?_counted`), since the saved counts are the heights at which substitutions stand among
them. It therefore finds the end of exactly the texts between braces (`closingBrace?_exact`), and it
never counts below zero, because the outermost brace stays open until the scan ends.
-/

namespace ReactiveMarkup.Markup

/-! ## The scan -/

/-- Where a scan that counts braces stands. -/
structure Count where
  mode : BraceMode
  /-- How many braces are open. -/
  depth : Nat
  /-- The counts at which the open substitutions started, innermost first. -/
  saved : List Nat
deriving DecidableEq, Repr

namespace Count

/-- The count behind a closing brace: the scan ends if it closes the outermost brace. -/
def close (s : Count) : Option Count :=
  let depth := s.depth - 1
  if s.saved.head? = some depth then some ⟨.template, depth, s.saved.tail⟩
  else if depth = 0 then none
  else some { s with depth := depth }

/-- Reads a character, given the one behind it; there is no count where the scan ends. -/
def step (s : Count) (c : Char) (next : Option Char) : Option Count :=
  match s.mode with
  | .code =>
    if c = '"' || c = '\'' then some { s with mode := .quoted c }
    else if c = '`' then some { s with mode := .template }
    else if c = '{' then some { s with depth := s.depth + 1 }
    else if c = '}' then s.close
    else some s
  | .quoted quote =>
    if c = '\\' then some { s with mode := .quotedEscape quote }
    else if c = quote then some { s with mode := .code }
    else some s
  | .quotedEscape quote => some { s with mode := .quoted quote }
  | .template =>
    if c = '\\' then some { s with mode := .templateEscape }
    else if c = '`' then some { s with mode := .code }
    else if c = '$' && next = some '{' then some { s with mode := .dollar }
    else some s
  | .templateEscape => some { s with mode := .template }
  | .dollar => some ⟨.code, s.depth + 1, s.depth :: s.saved⟩

/-- The offset at which a scan ends that goes on with a text at the given offset. -/
def stop? (s : Count) (offset : Nat) : List Char → Option Nat
  | [] => none
  | c :: rest =>
    match s.step c rest.head? with
    | none => some offset
    | some s => s.stop? (offset + c.utf8Size) rest

/-- The count behind a text, given the text that follows it. -/
def after (s : Count) (tail : List Char) : List Char → Option Count
  | [] => some s
  | c :: rest => (s.step c (rest ++ tail).head?).bind (·.after tail rest)

/-- Nothing has been read. -/
def start : Count := ⟨.code, 0, []⟩

end Count

/-- The offset of the brace that closes the one at a byte offset. -/
def closingBrace? (source : List Char) (offset : Nat) : Option Nat :=
  (Text.dropBytes? offset source).bind (Count.start.stop? offset)

/-! ## One step of both scans -/

/-- Reads a character while the open braces are kept, given the one behind it; nothing is left open
where the scan ends. -/
def move (mode : BraceMode) (opened : List OpenBrace) (c : Char) (next : Option Char) :
    Option (BraceMode × List OpenBrace) :=
  match mode with
  | .code =>
    if c = '"' || c = '\'' then some (.quoted c, opened)
    else if c = '`' then some (.template, opened)
    else if c = '{' then some (.code, .plain :: opened)
    else if c = '}' then
      match opened with
      | .substitution :: outer => some (.template, outer)
      | .plain :: inner :: outer => some (.code, inner :: outer)
      | _ => none
    else some (.code, opened)
  | .quoted quote =>
    if c = '\\' then some (.quotedEscape quote, opened)
    else if c = quote then some (.code, opened)
    else some (.quoted quote, opened)
  | .quotedEscape quote => some (.quoted quote, opened)
  | .template =>
    if c = '\\' then some (.templateEscape, opened)
    else if c = '`' then some (.code, opened)
    else if c = '$' && next = some '{' then some (.dollar, opened)
    else some (.template, opened)
  | .templateEscape => some (.template, opened)
  | .dollar => some (.code, .substitution :: opened)

/-- Splitting a text reads its characters one by one. -/
theorem splitAtClosing_cons (mode : BraceMode) (opened : List OpenBrace) (c : Char)
    (rest : List Char) :
    splitAtClosing mode opened (c :: rest) =
      match move mode opened c rest.head? with
      | none => some ([], rest)
      | some (mode, opened) => splitAtClosing.keep c (splitAtClosing mode opened rest) := by
  cases mode with
  | code =>
    simp only [splitAtClosing, move]
    repeat' split
    all_goals simp_all
  | quoted quote =>
    simp only [splitAtClosing, move]
    repeat' split
    all_goals simp_all
  | template =>
    simp only [splitAtClosing, move]
    repeat' split
    all_goals simp_all
  | _ => rfl

/-- The heights at which substitutions stand among open braces, innermost first. -/
def savedCounts : List OpenBrace → List Nat
  | [] => []
  | .plain :: outer => savedCounts outer
  | .substitution :: outer => outer.length :: savedCounts outer

/-- What is counted of open braces. -/
def counted (mode : BraceMode) (opened : List OpenBrace) : Count :=
  ⟨mode, opened.length, savedCounts opened⟩

theorem lt_length_of_mem_savedCounts {opened : List OpenBrace} {n : Nat}
    (mem : n ∈ savedCounts opened) : n < opened.length := by
  induction opened with
  | nil => cases mem
  | cons brace outer ih =>
    cases brace with
    | plain => exact Nat.lt_succ_of_lt (ih mem)
    | substitution =>
      rcases List.mem_cons.1 mem with rfl | mem
      · exact Nat.lt_succ_self _
      · exact Nat.lt_succ_of_lt (ih mem)

/-- A plain brace does not bring the count back to a saved one. -/
theorem head?_savedCounts_ne (outer : List OpenBrace) :
    (savedCounts outer).head? ≠ some outer.length := fun same =>
  Nat.lt_irrefl _ (lt_length_of_mem_savedCounts (List.mem_of_head? same))

/-- A closing brace does the same to the count as to the open braces. -/
theorem close_counted (opened : List OpenBrace) (next : Option Char) :
    (counted .code opened).close =
      (move .code opened '}' next).map fun moved => counted moved.1 moved.2 := by
  cases opened with
  | nil => rfl
  | cons brace outer =>
    cases brace with
    | substitution => simp [counted, Count.close, savedCounts, move]
    | plain =>
      -- every saved height is below this brace, so the count does not come back to one
      have ne := head?_savedCounts_ne outer
      cases outer with
      | nil => rfl
      | cons inner outer =>
        rw [List.length_cons] at ne
        simp [counted, Count.close, savedCounts, move, ne]

/-- A character does the same to the count as to the open braces. -/
theorem step_counted (mode : BraceMode) (opened : List OpenBrace) (c : Char) (next : Option Char) :
    (counted mode opened).step c next =
      (move mode opened c next).map fun moved => counted moved.1 moved.2 := by
  cases mode with
  | code =>
    by_cases closing : c = '}'
    · subst closing
      exact close_counted opened next
    · simp only [Count.step, counted, move, closing, if_false]
      repeat' split
      all_goals rfl
  | quoted quote =>
    simp only [Count.step, counted, move]
    repeat' split
    all_goals rfl
  | template =>
    simp only [Count.step, counted, move]
    repeat' split
    all_goals rfl
  | _ => rfl

/-- Counting finds the brace at which a text is split. -/
theorem stop?_counted (mode : BraceMode) (opened : List OpenBrace) (offset : Nat)
    (text : List Char) :
    (counted mode opened).stop? offset text =
      (splitAtClosing mode opened text).map fun split => offset + Text.byteSize split.1 := by
  induction text generalizing mode opened offset with
  | nil => cases mode <;> rfl
  | cons c rest ih =>
    rw [Count.stop?, step_counted, splitAtClosing_cons]
    cases move mode opened c rest.head? with
    | none => rfl
    | some moved =>
      -- the offset advances by the character that splitting keeps
      obtain ⟨mode, opened⟩ := moved
      dsimp only [Option.map_some]
      rw [ih, keep_eq]
      cases splitAtClosing mode opened rest with
      | none => rfl
      | some split => simp [keepAll, Nat.add_assoc]

/-! ## The count stays positive -/

/-- The outermost brace stays open until the scan ends. -/
theorem exists_inner_of_move {mode mode' : BraceMode} {inner opened : List OpenBrace} {c : Char}
    {next : Option Char} (moved : move mode (inner ++ [.plain]) c next = some (mode', opened)) :
    ∃ inner', opened = inner' ++ [.plain] := by
  cases mode with
  | code =>
    by_cases closing : c = '}'
    · -- only here a brace is taken off, and with the outermost one the scan ends
      subst closing
      cases inner with
      | nil => cases moved
      | cons brace outer =>
        cases brace with
        | substitution =>
          cases moved
          exact ⟨outer, rfl⟩
        | plain =>
          cases outer with
          | nil =>
            cases moved
            exact ⟨[], rfl⟩
          | cons inner outer =>
            cases moved
            exact ⟨inner :: outer, rfl⟩
    · simp only [move, closing, if_false] at moved
      split at moved
      · cases moved
        exact ⟨inner, rfl⟩
      split at moved
      · cases moved
        exact ⟨inner, rfl⟩
      split at moved
      · cases moved
        exact ⟨.plain :: inner, rfl⟩
      · cases moved
        exact ⟨inner, rfl⟩
  | dollar =>
    cases moved
    exact ⟨.substitution :: inner, rfl⟩
  | _ =>
    have same : opened = inner ++ [.plain] := by
      simp only [move] at moved
      repeat' split at moved
      all_goals cases moved; rfl
    exact ⟨inner, same⟩

/-- Wherever a scan comes behind its first brace, the outermost brace is open. -/
theorem exists_inner_of_after {mode : BraceMode} {inner : List OpenBrace} {tail before : List Char}
    {s : Count} (reached : (counted mode (inner ++ [.plain])).after tail before = some s) :
    ∃ mode' inner', s = counted mode' (inner' ++ [.plain]) := by
  induction before generalizing mode inner with
  | nil => exact ⟨mode, inner, (Option.some.inj reached).symm⟩
  | cons c rest ih =>
    rw [Count.after, step_counted] at reached
    cases moved : move mode (inner ++ [.plain]) c (rest ++ tail).head? with
    | none =>
      rw [moved] at reached
      cases reached
    | some state =>
      obtain ⟨mode', opened⟩ := state
      obtain ⟨inner', rfl⟩ := exists_inner_of_move moved
      rw [moved] at reached
      exact ih reached

theorem step_start (next : Option Char) :
    Count.start.step '{' next = some (counted .code ([] ++ [.plain])) := rfl

/-- The count is positive behind the first brace. -/
theorem depth_pos {tail before : List Char} {s : Count}
    (reached : Count.start.after tail ('{' :: before) = some s) : 0 < s.depth := by
  rw [Count.after, step_start, Option.bind_some] at reached
  obtain ⟨mode, inner, rfl⟩ := exists_inner_of_after reached
  simp [counted]

/-! ## What the scan finds -/

/-- A text between braces. -/
def Braced (piece : List Char) : Prop :=
  ∃ code, Balanced .code code ∧ piece = '{' :: (code ++ ['}'])

theorem byteSize_braced (code : List Char) :
    Text.byteSize ('{' :: (code ++ ['}'])) = Text.byteSize code + 2 := by
  rw [Text.byteSize_cons, Text.byteSize_append]
  exact Nat.add_comm 1 _

/-- A text between braces starts a text if it is split at the last brace. -/
theorem braced_lead_iff {piece text : List Char} :
    Braced piece ∧ piece <+: '{' :: text ↔
      ∃ code rest, splitBraced text = some (code, rest) ∧ piece = '{' :: (code ++ ['}']) := by
  constructor
  · rintro ⟨⟨code, balanced, rfl⟩, lead⟩
    obtain ⟨rest, same⟩ := (List.cons_prefix_cons.1 lead).2
    refine ⟨code, rest, splitBraced_eq_some_iff.2 ⟨?_, balanced⟩, rfl⟩
    rw [← same, List.append_assoc, List.singleton_append]
  · rintro ⟨code, rest, split, rfl⟩
    obtain ⟨rfl, balanced⟩ := splitBraced_eq_some_iff.1 split
    refine ⟨⟨code, balanced, rfl⟩, List.cons_prefix_cons.2 ⟨rfl, rest, ?_⟩⟩
    rw [List.append_assoc, List.singleton_append]

section

variable {source text : List Char} {offset : Nat}
  (brace : Text.dropBytes? offset source = some ('{' :: text))
include brace

/-- The scan finds the brace at which markup is split. -/
theorem closingBrace?_eq :
    closingBrace? source offset =
      (splitBraced text).map fun split => offset + 1 + Text.byteSize split.1 := by
  rw [closingBrace?, brace, Option.bind_some, Count.stop?, step_start]
  exact stop?_counted .code [.plain] (offset + 1) text

theorem closingBrace?_eq_some_iff {stop : Nat} :
    closingBrace? source offset = some stop ↔
      ∃ piece, Braced piece ∧ piece <+: '{' :: text ∧ stop + 1 = offset + Text.byteSize piece := by
  rw [closingBrace?_eq brace]
  constructor
  · intro found
    obtain ⟨⟨code, rest⟩, split, rfl⟩ := Option.map_eq_some_iff.1 found
    obtain ⟨braced, lead⟩ := braced_lead_iff.2 ⟨code, rest, split, rfl⟩
    refine ⟨_, braced, lead, ?_⟩
    rw [byteSize_braced]
    dsimp only
    omega
  · rintro ⟨piece, braced, lead, size⟩
    obtain ⟨code, rest, split, rfl⟩ := braced_lead_iff.1 ⟨braced, lead⟩
    rw [split, Option.map_some]
    rw [byteSize_braced] at size
    exact congrArg some (by dsimp only; omega)

/-- What the scan finds is a closing brace behind the opening one. -/
theorem closingBrace?_located {stop : Nat} (found : closingBrace? source offset = some stop) :
    offset < stop ∧ ∃ rest, Text.dropBytes? stop source = some ('}' :: rest) := by
  rw [closingBrace?_eq brace] at found
  obtain ⟨⟨code, rest⟩, split, rfl⟩ := Option.map_eq_some_iff.1 found
  obtain ⟨lead, rfl, size⟩ := Text.dropBytes?_eq_some_iff.1 brace
  obtain ⟨rfl, -⟩ := splitBraced_eq_some_iff.1 split
  refine ⟨by dsimp only; omega, rest, Text.dropBytes?_eq_some_iff.2 ⟨lead ++ '{' :: code, ?_, ?_⟩⟩
  · simp
  · rw [Text.byteSize_append, Text.byteSize_cons, size, Nat.add_assoc]
    rfl

end

/-- Whether the scan from a brace, with the given text behind it, is exact. -/
structure ScansExactly (source : List Char) (offset : Nat) (text : List Char) : Prop where
  /-- It finds the end of the text between braces that starts there. -/
  found_iff : ∀ stop, closingBrace? source offset = some stop ↔
    ∃ piece, Braced piece ∧ piece <+: '{' :: text ∧ stop + 1 = offset + Text.byteSize piece
  /-- There is at most one such text. -/
  unique : ∀ piece piece', Braced piece → piece <+: '{' :: text → Braced piece' →
    piece' <+: '{' :: text → piece = piece'
  /-- If there is none, it finds nothing. -/
  none_iff : closingBrace? source offset = none ↔
    ∀ piece, Braced piece → ¬ piece <+: '{' :: text
  /-- What it finds is a closing brace behind the opening one. -/
  located : ∀ stop, closingBrace? source offset = some stop →
    offset < stop ∧ ∃ rest, Text.dropBytes? stop source = some ('}' :: rest)
  /-- Something is open wherever it takes a closing brace off the count. -/
  positive : ∀ before tail s, '{' :: text = before ++ '}' :: tail →
    Count.start.after ('}' :: tail) before = some s → s.mode = .code → 0 < s.depth
  /-- Markup is split at the brace that it finds. -/
  split_eq : closingBrace? source offset =
    (splitBraced text).map fun split => offset + 1 + Text.byteSize split.1

/-- **Counting braces follows the grammar of texts between braces.** -/
theorem closingBrace?_exact (source : List Char) (offset : Nat) (text : List Char)
    (brace : Text.dropBytes? offset source = some ('{' :: text)) :
    ScansExactly source offset text where
  found_iff _ := closingBrace?_eq_some_iff brace
  unique piece piece' braced lead braced' lead' := by
    obtain ⟨code, rest, split, rfl⟩ := braced_lead_iff.1 ⟨braced, lead⟩
    -- two pieces between braces split the same text, and a split is unique
    obtain ⟨code', rest', split', rfl⟩ := braced_lead_iff.1 ⟨braced', lead'⟩
    cases split.symm.trans split'
    rfl
  none_iff := by
    constructor
    · intro none piece braced lead
      obtain ⟨code, rest, split, -⟩ := braced_lead_iff.1 ⟨braced, lead⟩
      rw [closingBrace?_eq brace, split] at none
      cases none
    · intro none
      refine Option.eq_none_iff_forall_ne_some.2 fun stop found => ?_
      obtain ⟨piece, braced, lead, -⟩ := (closingBrace?_eq_some_iff brace).1 found
      exact none piece braced lead
  located _ := closingBrace?_located brace
  positive before tail s split reached _ := by
    cases before with
    | nil => simp at split
    | cons c before =>
      obtain rfl : '{' = c := (List.cons.inj split).1
      exact depth_pos reached
  split_eq := closingBrace?_eq brace

/-- A brace in a literal, one of a substitution, and one of a block inside it. -/
theorem closingBrace?_exact_nested :
    closingBrace? "é\x7b'\x7d' + `$\x7bf(\x7b\x7d)\x7d`\x7d \x7d".toList 2 = some 19 ∧
      ScansExactly "é\x7b'\x7d' + `$\x7bf(\x7b\x7d)\x7d`\x7d \x7d".toList 2
        "'\x7d' + `$\x7bf(\x7b\x7d)\x7d`\x7d \x7d".toList :=
  ⟨by decide +kernel, closingBrace?_exact _ _ _ (by decide +kernel)⟩

end ReactiveMarkup.Markup
