import ReactiveMarkup.Emission.Literal
import ReactiveMarkup.Proofs.ReindentedToken

/-!
# Quoted texts read back

A quoted text is read here by the lexer of scripts, which follows every escape that a literal
between double quotes may hold. Each character of the text is written as a piece that the lexer
reads as this character, back outside escapes (`scanQuoted_quotedChar`). Hence it comes to the last
quote in front of whatever follows, and finds the text (`quote_readsBack`).
-/

namespace ReactiveMarkup.Emission

open Script (scanQuoted quotedMove quotedTextMove scanAt joinSurrogates surrogatesPaired
  wholeCharacter isHighSurrogate isLowSurrogate)

/-! ## Reading the pieces -/

/-- A piece is read as the character that it stands for. -/
theorem scanQuoted_quotedChar (c : Char) (taken : List Nat) (index : Nat) (rest : List Char) :
    scanQuoted '"' none taken index (quotedChar c ++ rest) =
      scanQuoted '"' none (c.toNat :: taken) (index + (quotedChar c).length) rest := by
  fun_cases quotedChar c with
  | case9 c not_backslash not_quote not_lineFeed not_return =>
    have inLine : ¬ (c = '\n' || c = '\r') = true := by
      simpa using ⟨not_lineFeed, not_return⟩
    have move : quotedMove '"' none c = .next none [c.toNat] := by
      rw [quotedMove, quotedTextMove, if_neg not_quote, if_neg not_backslash, if_neg inLine]
      rfl
    exact scanQuoted_next move taken index rest
  | _ => rfl

theorem scanQuoted_text (text : List Char) (taken : List Nat) (index : Nat) (rest : List Char) :
    scanQuoted '"' none taken index (text.flatMap quotedChar ++ '"' :: rest) =
      some ⟨taken.reverse ++ text.map Char.toNat,
        ⟨rest, index + (text.flatMap quotedChar).length + 1⟩⟩ := by
  induction text generalizing taken index with
  | nil =>
    have closes : quotedMove '"' none '"' = .closed [] := rfl
    rw [List.flatMap_nil, List.nil_append, scanQuoted_closed closes]
    rfl
  | cons c text ih =>
    rw [List.flatMap_cons, List.append_assoc, scanQuoted_quotedChar, ih]
    simp [Nat.add_assoc]

/-! ## Characters and their code points -/

theorem not_surrogate (c : Char) :
    isHighSurrogate c.toNat = false ∧ isLowSurrogate c.toNat = false := by
  have valid := c.valid
  simp only [UInt32.isValidChar, Nat.isValidChar] at valid
  have code : c.toNat = c.val.toNat := rfl
  simp only [isHighSurrogate, isLowSurrogate, Bool.and_eq_false_iff, decide_eq_false_iff_not]
  omega

theorem wholeCharacter_toNat (c : Char) : wholeCharacter c.toNat = c := by
  simp [wholeCharacter, not_surrogate]

theorem joinSurrogates_map_toNat (text : List Char) :
    joinSurrogates (text.map Char.toNat) = text := by
  induction text with
  | nil => rfl
  | cons c text ih =>
    cases text with
    | nil => simp [joinSurrogates, wholeCharacter_toNat]
    | cons next text =>
      rw [List.map_cons, List.map_cons, joinSurrogates, (not_surrogate c).1, Bool.false_and,
        if_neg (by decide), wholeCharacter_toNat]
      exact congrArg (c :: ·) ih

theorem surrogatesPaired_map_toNat (text : List Char) :
    surrogatesPaired (text.map Char.toNat) = true := by
  induction text with
  | nil => rfl
  | cons c text ih =>
    cases text with
    | nil => simp [surrogatesPaired, not_surrogate]
    | cons next text =>
      rw [List.map_cons, List.map_cons, surrogatesPaired, (not_surrogate c).1, (not_surrogate c).2]
      exact ih

/-! ## What the literal holds -/

/-- Whether some characters of a literal leave the next one escaped: they end in a backslash that is
not escaped itself. -/
def leavesEscape (text : List Char) : Bool :=
  text.foldl (fun escaped c => !escaped && c = '\\') false

theorem leavesEscape_append (before piece : List Char) (unescaped : leavesEscape before = false) :
    leavesEscape (before ++ piece) = leavesEscape piece := by
  rw [leavesEscape, List.foldl_append]
  exact congrArg (piece.foldl _) unescaped

theorem leavesEscape_quotedChar (c : Char) : leavesEscape (quotedChar c) = false := by
  fun_cases quotedChar c with
  | case9 c not_backslash => simpa [leavesEscape] using not_backslash
  | _ => rfl

/-- The only quotes are those behind a backslash that is not escaped. -/
theorem leavesEscape_of_quote {c : Char} {lead behind : List Char}
    (quote : quotedChar c = lead ++ '"' :: behind) : leavesEscape lead = true := by
  have mem : '"' ∈ quotedChar c := by simp [quote]
  obtain rfl : c = '"' := by
    revert mem
    fun_cases quotedChar c <;> simp_all [eq_comm]
  rcases List.cons_eq_append_iff.1 quote with ⟨-, same⟩ | ⟨lead, rfl, same⟩
  · cases same
  · rcases List.cons_eq_append_iff.1 same with ⟨rfl, -⟩ | ⟨lead, rfl, same⟩
    · rfl
    · simp at same

theorem leavesEscape_text (text : List Char) : leavesEscape (text.flatMap quotedChar) = false := by
  induction text with
  | nil => rfl
  | cons c text ih =>
    rw [List.flatMap_cons, leavesEscape_append _ _ (leavesEscape_quotedChar c), ih]

theorem leavesEscape_of_quote_text {text lead behind : List Char}
    (quote : text.flatMap quotedChar = lead ++ '"' :: behind) : leavesEscape lead = true := by
  induction text generalizing lead with
  | nil => simp at quote
  | cons c text ih =>
    rw [List.flatMap_cons] at quote
    -- the quote is in the pieces behind the first one, or in the first piece
    rcases List.append_eq_append_iff.1 quote with ⟨more, rfl, within⟩ | ⟨more, whole, rest⟩
    · rw [leavesEscape_append _ _ (leavesEscape_quotedChar c)]
      exact ih within
    · cases more with
      | nil => exact absurd (@ih [] rest.symm) (by decide)
      | cons first more =>
        obtain rfl : '"' = first := by simpa using (List.cons.inj rest).1
        exact leavesEscape_of_quote whole

/-- Characters that end a line are written as escapes. -/
theorem no_lineEnd_of_quotedChar (c : Char) :
    ((quotedChar c).all fun d => d ∉ ['\n', '\r', '\u2028', '\u2029']) = true := by
  fun_cases quotedChar c with
  | case9 c _ _ not_lineFeed not_return _ not_separator not_paragraph =>
    simpa using ⟨not_lineFeed, not_return, not_separator, not_paragraph⟩
  | _ => rfl

theorem no_lineEnd_of_mem_quoted {text : List Char} {d : Char} (mem : d ∈ quoted text) :
    d ∉ ['\n', '\r', '\u2028', '\u2029'] := by
  rw [quoted, List.cons_append, List.mem_cons, List.mem_append, List.mem_singleton] at mem
  rcases mem with rfl | inside | rfl
  · decide
  · obtain ⟨c, -, inside⟩ := List.mem_flatMap.1 inside
    exact of_decide_eq_true (List.all_eq_true.1 (no_lineEnd_of_quotedChar c) d inside)
  · decide

/-! ## The whole literal -/

/-- The lexer reads a quoted text, and stops behind its last quote. -/
theorem scanAt_quoted (text rest : List Char) (index : Nat) :
    scanAt ⟨quoted text ++ rest, index⟩ =
      (.string (String.ofList text) true, ⟨rest, index + (quoted text).length⟩) := by
  have printed : quoted text ++ rest = '"' :: (text.flatMap quotedChar ++ '"' :: rest) := by
    simp [quoted]
  rw [printed, scanAt_quote (.inl rfl) (scanQuoted_text text [] (index + 1) rest)]
  simp only [List.reverse_nil, List.nil_append, joinSurrogates_map_toNat,
    surrogatesPaired_map_toNat]
  simp [quoted]
  omega

/-- A quoted text is not the start of another one, whatever follows. -/
theorem quoted_append_inj {s t u v : List Char} (same : quoted s ++ u = quoted t ++ v) :
    s = t ∧ u = v := by
  have read := scanAt_quoted s u 0
  rw [same, scanAt_quoted, Prod.mk.injEq, Script.TokenKind.string.injEq,
    Script.Cursor.mk.injEq] at read
  obtain ⟨⟨text, -⟩, rest, -⟩ := read
  exact ⟨String.ofList_injective text.symm, rest.symm⟩

/-- **A quoted text is read back, whatever follows it.** The lexer of scripts takes the literal, and
only the literal, for a string literal of that text. The literal holds no character that ends a
line, and each quote in it stands behind a backslash that is not escaped itself, but for the first
and the last character. -/
theorem quote_readsBack (text : String) (rest : List Char) (index : Nat) :
    scanAt ⟨(quote text).toList ++ rest, index⟩ =
        (.string text true, ⟨rest, index + (quote text).length⟩) ∧
      (∀ c ∈ (quote text).toList, c ∉ ['\n', '\r', '\u2028', '\u2029']) ∧
      ∀ lead behind, (quote text).toList = lead ++ '"' :: behind →
        (leavesEscape lead = false ↔ lead = [] ∨ behind = []) := by
  have literal : (quote text).toList = quoted text.toList := String.toList_ofList
  rw [← String.length_toList, literal]
  refine ⟨by rw [scanAt_quoted, String.ofList_toList], fun c => no_lineEnd_of_mem_quoted, ?_⟩
  intro lead behind quote
  cases lead with
  | nil => simp [leavesEscape]
  | cons first lead =>
    rw [quoted, List.cons_append, List.cons_append, List.cons.injEq] at quote
    obtain ⟨rfl, quote⟩ := quote
    have opened : leavesEscape ('"' :: lead) = leavesEscape lead := rfl
    rw [opened]
    rcases List.eq_nil_or_concat behind with rfl | ⟨behind, last, rfl⟩
    · obtain ⟨rfl, -⟩ := List.append_inj' quote rfl
      simp [leavesEscape_text]
    · rw [List.concat_eq_append, ← List.cons_append, ← List.append_assoc] at quote
      have inside := leavesEscape_of_quote_text (List.append_inj' quote rfl).1
      simp [inside]

end ReactiveMarkup.Emission
