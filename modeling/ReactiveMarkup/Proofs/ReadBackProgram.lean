import ReactiveMarkup.Proofs.ReadBackTree

/-!
# Reading back programs

A program is read back statement by statement up to its end. The directives at its start are kept as
their text, and the names that its statements export are distinct.
-/

namespace ReactiveMarkup.Script

open Reader

/-! ## Programs that keep their reading -/

/-- The text of a program. -/
def programText : List Statement → List Char
  | [] => []
  | s :: ss => s.chars 0 ++ '\n' :: programText ss

theorem toList_printStatements (ss : List Statement) :
    (printStatements ss).toList = programText ss := by
  unfold printStatements
  induction ss with
  | nil => rfl
  | cons s ss ih =>
    rw [Statement.printLines, programText, ← ih]
    simp [Statement.chars, Text.indentation]

/-- Whether verbatim text is read back as a directive. -/
def Statement.ReadsDirective (rest : List Char) : Statement → Prop
  | .verbatim source references =>
    references = [] ∧ ∀ total notes gap depth, Fits total gap (source.toList ++ rest) 9 depth →
      (facing total notes (gap ++ (source.toList ++ rest))).token.start =
        .before total (source.toList ++ rest) ∧
      ∃ clause, (grammar depth).statement .topLevel false
          (facing total notes (gap ++ (source.toList ++ rest))) =
          some (clause, facing total notes rest) ∧
        clause.isDirective = true ∧ clause.exported = []
  | _ => False

/-- Whether the statements of a program, which export the given names, keep their reading. The start
of a program may have directives. -/
def Statement.KeepsProgram (isStart : Bool) (exports : List String) : List Statement → Prop
  | [] => exports = []
  | s :: ss =>
    isStart = true ∧ s.ReadsDirective ('\n' :: programText ss) ∧
        Statement.KeepsProgram true exports ss ∨
      ∃ own others, exports = own ++ others ∧
        s.Keeps .topLevel 0 false isStart own ('\n' :: programText ss) ∧
        Statement.KeepsProgram false others ss

/-- Whether a program keeps its reading, and the names that it exports are distinct. -/
def KeepsReading (program : List Statement) : Prop :=
  ∃ exports, (distinctNames exports).length = exports.length ∧
    Statement.KeepsProgram true exports program

/-! ## Statements up to the end -/

/-- The trees of the statements of a program; the directives at its start may be kept as their
text. -/
def itemTrees (isStart : Bool) (items : List TopLevelClause) : List Statement :=
  if isStart then programStatements items else items.map fun item => item.clause.tree

theorem itemTrees_directive {item : TopLevelClause} (isDirective : item.clause.isDirective = true)
    (items : List TopLevelClause) :
    itemTrees true (item :: items) = .verbatim item.text [] :: itemTrees true items := by
  simp [itemTrees, programStatements, isDirective]

theorem itemTrees_statement {isStart : Bool} {item : TopLevelClause}
    (noDirective : isStart = true → item.clause.isDirective = false) (items : List TopLevelClause) :
    itemTrees isStart (item :: items) = item.clause.tree :: itemTrees false items := by
  cases isStart with
  | false => rfl
  | true => simp [itemTrees, programStatements, noDirective rfl]

/-- Whether a text is read back as the statements of a program up to its end. -/
def ReadsProgram (isStart : Bool) (text : List Char) (trees : List Statement)
    (exports : List String) : Prop :=
  ∀ total notes gap depth fuel, Fits total gap text 9 depth → text.length + 1 ≤ fuel →
    ∃ items s, collect (programItem (grammar depth)) fuel (facing total notes (gap ++ text)) =
        some (items, s) ∧
      (s.token.kind = .ended ∧ s.covers = notes.covers ∧ s.flawed = notes.flawed) ∧
      itemTrees isStart items = trees ∧
      (items.flatMap fun item => item.clause.exported) = exports

theorem readsProgram_nil (isStart : Bool) : ReadsProgram isStart [] [] [] := by
  intro total notes gap depth fuel fits enough
  obtain ⟨fuel, rfl⟩ : ∃ f, fuel = f + 1 := ⟨fuel - 1, by omega⟩
  have token : (facing total notes (gap ++ [])).token.kind = .ended :=
    congrArg Token.kind (scanToken_before fits.blank rfl fits.room)
  have item : programItem (grammar depth) (facing total notes (gap ++ [])) =
      some (none, facing total notes (gap ++ [])) := by
    unfold programItem
    rw [run_bind_of (run_current _), token, if_pos (by rfl)]
    rfl
  refine ⟨[], _, ?_, ⟨token, rfl, rfl⟩, by cases isStart <;> rfl, rfl⟩
  rw [collect, run_bind_of item]
  rfl

section

variable {isStart : Bool} {piece more : List Char} {trees : List Statement} {exports : List String}

/-- One more statement, given what is read of it. -/
theorem collect_programItem (others : ReadsProgram isStart more trees exports) {total : Nat}
    {notes : Notes} {gap : List Char} {depth fuel : Nat}
    (fits : Fits total gap (piece ++ '\n' :: more) 9 depth)
    (enough : (piece ++ '\n' :: more).length + 1 ≤ fuel) {clause : Clause}
    (reads : (grammar depth).statement .topLevel false
      (facing total notes (gap ++ (piece ++ '\n' :: more))) =
      some (clause, facing total notes ('\n' :: more))) :
    ∃ items s, collect (programItem (grammar depth)) fuel
        (facing total notes (gap ++ (piece ++ '\n' :: more))) =
        some (⟨clause, (facing total notes (gap ++ (piece ++ '\n' :: more))).token.start.slice
          (total - ('\n' :: more).length)⟩ :: items, s) ∧
      (s.token.kind = .ended ∧ s.covers = notes.covers ∧ s.flawed = notes.flawed) ∧
      itemTrees isStart items = trees ∧
      (items.flatMap fun item => item.clause.exported) = exports := by
  have room := fits.room
  simp only [List.length_append, List.length_cons] at room enough
  obtain ⟨fuel, rfl⟩ : ∃ f, fuel = f + 1 := ⟨fuel - 1, by omega⟩
  obtain ⟨items, s, collected, ended, eq⟩ := others total notes ['\n'] depth fuel (by
    refine fits.shorter Blank.nil.cons_newLine ?_ ?_ <;> simp <;> omega) (by omega)
  refine ⟨items, s, ?_, ended, eq⟩
  have item : programItem (grammar depth) (facing total notes (gap ++ (piece ++ '\n' :: more))) =
      some (some ⟨clause, (facing total notes (gap ++ (piece ++ '\n' :: more))).token.start.slice
        (total - ('\n' :: more).length)⟩, facing total notes ('\n' :: more)) := by
    unfold programItem
    rw [run_bind_of (run_current _), (opens_of_statement reads).2.1, if_neg (by decide),
      run_bind_of reads]
    rfl
  rw [collect, run_bind_of item]
  dsimp only
  rw [show '\n' :: more = ['\n'] ++ more from rfl, run_bind_of collected]
  rfl

/-- A statement before others. -/
theorem readsProgram_cons {tree : Statement} {own : List String}
    (first : ReadsStatement .topLevel false isStart piece tree own ('\n' :: more))
    (others : ReadsProgram false more trees exports) :
    ReadsProgram isStart (piece ++ '\n' :: more) (tree :: trees) (own ++ exports) := by
  intro total notes gap depth fuel fits enough
  obtain ⟨clause, reads, rfl, noDirective, rfl⟩ := first total notes gap depth fits
  obtain ⟨items, s, collected, ended, rfl, rfl⟩ := collect_programItem others fits enough reads
  exact ⟨_, s, collected, ended, itemTrees_statement noDirective items, rfl⟩

/-- A directive before others. -/
theorem readsProgram_directive {s : Statement}
    (first : s.ReadsDirective ('\n' :: more)) (others : ReadsProgram true more trees exports) :
    ReadsProgram true (s.chars 0 ++ '\n' :: more) (s.settle 0 :: trees) exports := by
  cases s with
  | verbatim source references =>
    obtain ⟨rfl, first⟩ := first
    intro total notes gap depth fuel fits enough
    obtain ⟨start, clause, reads, isDirective, none⟩ := first total notes gap depth fits
    obtain ⟨items, s, collected, ended, rfl, rfl⟩ := collect_programItem others fits enough reads
    have room : (gap ++ (source.toList ++ '\n' :: more)).length ≤ total := fits.room
    rw [List.length_append] at room
    refine ⟨_, s, collected, ended, ?_, by simp [none]⟩
    rw [itemTrees_directive isDirective]
    have text : (Cursor.before total (source.toList ++ '\n' :: more)).slice
        (total - ('\n' :: more).length) = source := by
      rw [Cursor.slice_before (by omega), String.ofList_toList]
    change Statement.verbatim
      ((facing total notes (gap ++ (source.toList ++ '\n' :: more))).token.start.slice _) [] :: _ =
        Statement.verbatim source [] :: _
    rw [start, text]
  | _ => exact first.elim

/-- What is read back as a program starts neither with `else` nor with an invalid token. -/
theorem ReadsProgram.starts (reads : ReadsProgram isStart more trees exports) {total : Nat}
    {gap : List Char} (blank : Blank gap) (room : (gap ++ more).length ≤ total) :
    (scanToken (.before total (gap ++ more))).isWord "else" = false ∧
      (scanToken (.before total (gap ++ more))).kind ≠ .invalid := by
  obtain ⟨items, s, collected, -⟩ := reads total ⟨0, false⟩ gap (4 * (gap ++ more).length + 9)
    (more.length + 1) ⟨blank, room, Nat.le_refl _⟩ (Nat.le_refl _)
  change (facing total ⟨0, false⟩ (gap ++ more)).token.isWord "else" = false ∧
    (facing total ⟨0, false⟩ (gap ++ more)).token.kind ≠ .invalid
  generalize facing total ⟨0, false⟩ (gap ++ more) = s at collected ⊢
  obtain ⟨item, s', item_, -⟩ := bind_eq_some_iff.1 collected
  by_cases ended : s.token.kind = .ended
  · simp [Token.isWord, ended]
  · unfold programItem at item_
    rw [run_bind_of (run_current _), if_neg (by simpa using ended)] at item_
    obtain ⟨clause, s'', reads, -⟩ := bind_eq_some_iff.1 item_
    exact (opens_of_statement reads).2.2

end

/-! ## Programs -/

theorem readsProgram_of_keeps : (ss : List Statement) → {isStart : Bool} → {exports : List String} →
    Statement.GroupedAll .topLevel ss → Statement.KeepsProgram isStart exports ss →
    ReadsProgram isStart (programText ss) (Statement.settleAll 0 ss) exports
  | [], isStart, _, _, rfl => readsProgram_nil isStart
  | s :: ss, isStart, exports, ⟨grouped, more⟩, keeps => by
    rcases keeps with ⟨rfl, directive, keeps⟩ | ⟨own, others, rfl, keepsFirst, keeps⟩
    · exact readsProgram_directive directive (readsProgram_of_keeps ss more keeps)
    · have reads := readsProgram_of_keeps ss more keeps
      refine readsProgram_cons (s.readsBack rfl grouped keepsFirst fun _ => ?_) reads
      intro total room
      exact (reads.starts Blank.nil.cons_newLine room).1

/-- A program that is read back has no line for an operating system. -/
theorem skipInterpreterLine_of_reads {text : List Char} {trees : List Statement}
    {exports : List String} (reads : ReadsProgram true text trees exports) :
    skipInterpreterLine text = text := by
  unfold skipInterpreterLine
  split
  · rename_i rest
    have invalid := (reads.starts Blank.nil (Nat.le_refl _)).2
    refine absurd ?_ invalid
    have solid : isSolid ('#' :: '!' :: rest) = true := rfl
    rw [scanToken_before Blank.nil solid (Nat.le_refl _)]
    rfl
  · rfl

/-- A grouped program that keeps its reading is read back from its printed text. -/
theorem readProgram?_print {program : List Statement}
    (grouped : Statement.GroupedAll .topLevel program) (keeps : KeepsReading program) :
    readProgram? (printStatements program).toList = some (Statement.settleAll 0 program) := by
  obtain ⟨exports, distinct, keeps⟩ := keeps
  have reads := readsProgram_of_keeps program grouped keeps
  rw [toList_printStatements]
  generalize programText program = text at reads
  -- the fuel of the reader is enough for a text of this length
  have depth : depthFor text = 4 * text.length + 15 + 1 := rfl
  obtain ⟨items, s, collected, ⟨ended, covers, flawed⟩, trees, exported⟩ :=
    reads text.length ⟨0, false⟩ [] (depthFor text) (grammar (depthFor text)).limit
      ⟨Blank.nil, Nat.le_refl _, by rw [depth, List.nil_append]; omega⟩ (by
        rw [depth, grammar_limit]
        omega)
  have start : facing text.length ⟨0, false⟩ ([] ++ text) = .start text := by
    simp [facing, ReaderState.start, Cursor.before]
  have read : readItems (grammar (depthFor text)) (.start text) = some (items, s) := by
    unfold readItems
    rw [← start, run_bind_of collected, run_bind, run_require]
    have allDistinct : exportsDistinct items = true := by
      simp [exportsDistinct, exported, distinct]
    rw [allDistinct]
    rfl
  have sound : s.isSound = true := by
    simp [ReaderState.isSound, ended, covers, flawed]
  unfold readProgram? runReader
  rw [skipInterpreterLine_of_reads reads]
  simp only [read, sound, if_true, Option.map_some]
  exact congrArg some trees

end ReactiveMarkup.Script
