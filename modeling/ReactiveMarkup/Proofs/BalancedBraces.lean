import ReactiveMarkup.Markup.Braces

/-!
# Matching braces

`Balanced` is the grammar of embedded script as far as its braces are concerned: braces come in
pairs, quoted literals and template literals stand between their delimiters, a substitution is
script again, and all other characters stand for themselves. Splitting a text at the matching brace
finds exactly the texts of this grammar (`splitBraced_eq_some_iff`), so a brace has at most one
partner.
-/

namespace ReactiveMarkup.Markup

/-- How a stretch of embedded script is read. -/
inductive Region
  | code
  /-- Between two quotes. -/
  | quoted (quote : Char)
  /-- The text of a template literal. -/
  | template
deriving DecidableEq, Repr

/-- The texts that may fill a region, in which all braces that count have their partner. -/
inductive Balanced : Region → List Char → Prop
  | nil {region : Region} : Balanced region []
  | plain {c : Char} {rest : List Char} (isPlain : c ∉ ['"', '\'', '`', '{', '}'])
      (behind : Balanced .code rest) : Balanced .code (c :: rest)
  | string {quote : Char} {body rest : List Char} (isQuote : quote = '"' ∨ quote = '\'')
      (inner : Balanced (.quoted quote) body) (behind : Balanced .code rest) :
      Balanced .code (quote :: (body ++ quote :: rest))
  | literal {body rest : List Char} (inner : Balanced .template body)
      (behind : Balanced .code rest) : Balanced .code ('`' :: (body ++ '`' :: rest))
  | braces {body rest : List Char} (inner : Balanced .code body) (behind : Balanced .code rest) :
      Balanced .code ('{' :: (body ++ '}' :: rest))
  | quotedChar {quote c : Char} {rest : List Char} (ne_quote : c ≠ quote) (ne_escape : c ≠ '\\')
      (behind : Balanced (.quoted quote) rest) : Balanced (.quoted quote) (c :: rest)
  | quotedEscape {quote c : Char} {rest : List Char} (behind : Balanced (.quoted quote) rest) :
      Balanced (.quoted quote) ('\\' :: c :: rest)
  | templateChar {c : Char} {rest : List Char} (ne_end : c ≠ '`') (ne_escape : c ≠ '\\')
      (starts_none : c = '$' → rest.head? ≠ some '{') (behind : Balanced .template rest) :
      Balanced .template (c :: rest)
  | templateEscape {c : Char} {rest : List Char} (behind : Balanced .template rest) :
      Balanced .template ('\\' :: c :: rest)
  | substitution {body rest : List Char} (inner : Balanced .code body)
      (behind : Balanced .template rest) :
      Balanced .template ('$' :: '{' :: (body ++ '}' :: rest))

/-- How the first character of a region is read. -/
def Region.mode : Region → BraceMode
  | .code => .code
  | .quoted quote => .quoted quote
  | .template => .template

/-- The region around a brace, where reading goes on behind its partner. -/
def OpenBrace.around : OpenBrace → Region
  | .plain => .code
  | .substitution => .template

/-! ## Balanced text is passed over -/

/-- Puts a text back in front of a split one. -/
def keepAll (text : List Char) (split : Option (List Char × List Char)) :
    Option (List Char × List Char) :=
  split.map fun (before, after) => (text ++ before, after)

theorem keep_eq (c : Char) (split : Option (List Char × List Char)) :
    splitAtClosing.keep c split = keepAll [c] split := by
  rcases split with _ | ⟨before, after⟩ <;> rfl

@[simp] theorem keepAll_nil (split : Option (List Char × List Char)) :
    keepAll [] split = split := by
  rcases split with _ | ⟨before, after⟩ <;> rfl

@[simp] theorem keepAll_keepAll (text text' : List Char)
    (split : Option (List Char × List Char)) :
    keepAll text (keepAll text' split) = keepAll (text ++ text') split := by
  rcases split with _ | ⟨before, after⟩ <;> simp [keepAll]

section

attribute [local simp] splitAtClosing keep_eq

variable (opened : List OpenBrace) (rest : List Char)

theorem splitAtClosing_plain {c : Char} (isPlain : c ∉ ['"', '\'', '`', '{', '}']) :
    splitAtClosing .code opened (c :: rest) = keepAll [c] (splitAtClosing .code opened rest) := by
  simp only [List.mem_cons, List.not_mem_nil, or_false, not_or] at isPlain
  simp [isPlain]

theorem splitAtClosing_quote {quote : Char} (isQuote : quote = '"' ∨ quote = '\'') :
    splitAtClosing .code opened (quote :: rest) =
      keepAll [quote] (splitAtClosing (.quoted quote) opened rest) := by
  simp [isQuote]

theorem splitAtClosing_backtick :
    splitAtClosing .code opened ('`' :: rest) =
      keepAll ['`'] (splitAtClosing .template opened rest) := by
  simp

theorem splitAtClosing_open :
    splitAtClosing .code opened ('{' :: rest) =
      keepAll ['{'] (splitAtClosing .code (.plain :: opened) rest) := by
  simp

/-- The partner of an inner brace leads back into the region around it. -/
theorem splitAtClosing_close (brace : OpenBrace) (ne : opened ≠ []) :
    splitAtClosing .code (brace :: opened) ('}' :: rest) =
      keepAll ['}'] (splitAtClosing brace.around.mode opened rest) := by
  cases opened with
  | nil => exact absurd rfl ne
  | cons b outer => cases brace <;> simp [OpenBrace.around, Region.mode]

theorem splitAtClosing_outermost :
    splitAtClosing .code [.plain] ('}' :: rest) = some ([], rest) := by
  simp

theorem splitAtClosing_quotedChar {quote c : Char} (ne_quote : c ≠ quote) (ne_escape : c ≠ '\\') :
    splitAtClosing (.quoted quote) opened (c :: rest) =
      keepAll [c] (splitAtClosing (.quoted quote) opened rest) := by
  simp [ne_quote, ne_escape]

theorem splitAtClosing_unquote {quote : Char} (ne_escape : quote ≠ '\\') :
    splitAtClosing (.quoted quote) opened (quote :: rest) =
      keepAll [quote] (splitAtClosing .code opened rest) := by
  simp [ne_escape]

theorem splitAtClosing_quotedEscape (quote c : Char) :
    splitAtClosing (.quoted quote) opened ('\\' :: c :: rest) =
      keepAll ['\\', c] (splitAtClosing (.quoted quote) opened rest) := by
  simp

theorem splitAtClosing_templateChar {c : Char} (ne_end : c ≠ '`') (ne_escape : c ≠ '\\')
    (starts_none : c = '$' → rest.head? ≠ some '{') :
    splitAtClosing .template opened (c :: rest) =
      keepAll [c] (splitAtClosing .template opened rest) := by
  have none : ¬ (c = '$' ∧ rest.head? = some '{') := fun both => starts_none both.1 both.2
  simp [ne_end, ne_escape, none]

theorem splitAtClosing_untemplate :
    splitAtClosing .template opened ('`' :: rest) =
      keepAll ['`'] (splitAtClosing .code opened rest) := by
  simp

theorem splitAtClosing_templateEscape (c : Char) :
    splitAtClosing .template opened ('\\' :: c :: rest) =
      keepAll ['\\', c] (splitAtClosing .template opened rest) := by
  simp

theorem splitAtClosing_substitution :
    splitAtClosing .template opened ('$' :: '{' :: rest) =
      keepAll ['$', '{'] (splitAtClosing .code (.substitution :: opened) rest) := by
  simp

end

/-- Balanced text holds no brace that closes an open one. -/
theorem splitAtClosing_of_balanced {region : Region} {text : List Char}
    (balanced : Balanced region text) (opened : List OpenBrace) (tail : List Char)
    (ne : opened ≠ []) (starts_none : region = .template → tail.head? ≠ some '{') :
    splitAtClosing region.mode opened (text ++ tail) =
      keepAll text (splitAtClosing region.mode opened tail) := by
  -- a nested region is scanned to its own end, with its brace on top of the open ones, before the
  -- scan of the region around it goes on
  induction balanced generalizing opened tail with
  | nil => simp
  | plain isPlain _ ih =>
    have behind := ih opened tail ne nofun
    simp only [Region.mode] at behind ⊢
    rw [List.cons_append, splitAtClosing_plain opened _ isPlain, behind]
    simp
  | @string quote body rest isQuote _ _ ihBody ihRest =>
    have ne_escape : quote ≠ '\\' := by
      rcases isQuote with rfl | rfl <;> decide
    have inner := ihBody opened (quote :: (rest ++ tail)) ne nofun
    have behind := ihRest opened tail ne nofun
    simp only [Region.mode] at inner behind ⊢
    rw [List.cons_append, List.append_assoc, List.cons_append,
      splitAtClosing_quote opened _ isQuote, inner, splitAtClosing_unquote opened _ ne_escape,
      behind]
    simp
  | @literal body rest _ _ ihBody ihRest =>
    have inner := ihBody opened ('`' :: (rest ++ tail)) ne (by simp)
    have behind := ihRest opened tail ne nofun
    simp only [Region.mode] at inner behind ⊢
    rw [List.cons_append, List.append_assoc, List.cons_append, splitAtClosing_backtick, inner,
      splitAtClosing_untemplate, behind]
    simp
  | @braces body rest _ _ ihBody ihRest =>
    have inner := ihBody (.plain :: opened) ('}' :: (rest ++ tail)) (List.cons_ne_nil _ _) nofun
    have behind := ihRest opened tail ne nofun
    simp only [Region.mode] at inner behind ⊢
    rw [List.cons_append, List.append_assoc, List.cons_append, splitAtClosing_open, inner,
      splitAtClosing_close opened _ .plain ne, OpenBrace.around, Region.mode, behind]
    simp
  | quotedChar ne_quote ne_escape _ ih =>
    have behind := ih opened tail ne nofun
    simp only [Region.mode] at behind ⊢
    rw [List.cons_append, splitAtClosing_quotedChar opened _ ne_quote ne_escape, behind]
    simp
  | quotedEscape _ ih =>
    have behind := ih opened tail ne nofun
    simp only [Region.mode] at behind ⊢
    rw [List.cons_append, List.cons_append, splitAtClosing_quotedEscape, behind]
    simp
  | @templateChar c rest ne_end ne_escape starts _ ih =>
    have behind := ih opened tail ne starts_none
    -- a dollar sign at the end of the text is the case that `starts_none` is there for
    have starts' : c = '$' → (rest ++ tail).head? ≠ some '{' := by
      intro dollar
      cases rest with
      | nil => exact starts_none rfl
      | cons d rest => exact starts dollar
    simp only [Region.mode] at behind ⊢
    rw [List.cons_append, splitAtClosing_templateChar opened _ ne_end ne_escape starts', behind]
    simp
  | templateEscape _ ih =>
    have behind := ih opened tail ne starts_none
    simp only [Region.mode] at behind ⊢
    rw [List.cons_append, List.cons_append, splitAtClosing_templateEscape, behind]
    simp
  | @substitution body rest _ _ ihBody ihRest =>
    have inner := ihBody (.substitution :: opened) ('}' :: (rest ++ tail)) (List.cons_ne_nil _ _)
      nofun
    have behind := ihRest opened tail ne starts_none
    simp only [Region.mode] at inner behind ⊢
    rw [List.cons_append, List.cons_append, List.append_assoc, List.cons_append,
      splitAtClosing_substitution, inner, splitAtClosing_close opened _ .substitution ne,
      OpenBrace.around, Region.mode, behind]
    simp

/-! ## What is split off is balanced -/

/-- The texts that lead from a way of reading to the end of the script around it. -/
def Completes : BraceMode → List Char → Prop
  | .code, text => Balanced .code text
  | .quoted quote, text =>
    ∃ body rest, text = body ++ quote :: rest ∧ Balanced (.quoted quote) body ∧
      Balanced .code rest
  | .quotedEscape quote, text =>
    ∃ c body rest, text = c :: (body ++ quote :: rest) ∧ Balanced (.quoted quote) body ∧
      Balanced .code rest
  | .template, text =>
    ∃ body rest, text = body ++ '`' :: rest ∧ Balanced .template body ∧ Balanced .code rest
  | .templateEscape, text =>
    ∃ c body rest, text = c :: (body ++ '`' :: rest) ∧ Balanced .template body ∧
      Balanced .code rest
  | .dollar, text =>
    ∃ c inner body rest, text = c :: (inner ++ '}' :: (body ++ '`' :: rest)) ∧
      Balanced .code inner ∧ Balanced .template body ∧ Balanced .code rest

/-- The texts that close some open braces, innermost first, and lead to the end of the script around
them. -/
def Closes : BraceMode → List OpenBrace → List Char → Prop
  | mode, [], text => Completes mode text
  | mode, brace :: outer, text =>
    ∃ body rest, text = body ++ '}' :: rest ∧ Completes mode body ∧
      Closes brace.around.mode outer rest

/-- A text in front of one that closes some braces belongs to what is read up to the innermost of
them. -/
theorem Closes.append {mode mode' : BraceMode} {inner : List OpenBrace} {lead text : List Char}
    (closes : Closes mode' inner text)
    (completes : ∀ t, t <+: text → Completes mode' t → Completes mode (lead ++ t)) :
    Closes mode inner (lead ++ text) := by
  cases inner with
  | nil => exact completes text (List.prefix_refl text) closes
  | cons brace outer =>
    obtain ⟨body, rest, rfl, done, behind⟩ := closes
    refine ⟨lead ++ body, rest, (List.append_assoc lead body _).symm, ?_, behind⟩
    exact completes body (List.prefix_append body _) done

/-- A pair of braces may stand in front of what closes some others. -/
theorem Closes.braced {brace : OpenBrace} {mode : BraceMode} {inner : List OpenBrace}
    {lead text : List Char} (closes : Closes .code (brace :: inner) text)
    (completes : ∀ body t, Balanced .code body → Completes brace.around.mode t →
      Completes mode (lead ++ body ++ '}' :: t)) :
    Closes mode inner (lead ++ text) := by
  obtain ⟨body, rest, rfl, balanced, behind⟩ := closes
  have around : Closes mode inner ((lead ++ body ++ ['}']) ++ rest) := by
    refine behind.append fun t _ done => ?_
    simpa using completes body t balanced done
  simpa using around

theorem keepAll_eq_some {lead before after : List Char}
    {split : Option (List Char × List Char)} (h : keepAll lead split = some (before, after)) :
    ∃ before', before = lead ++ before' ∧ split = some (before', after) := by
  obtain ⟨⟨before', after'⟩, found, same⟩ := Option.map_eq_some_iff.1 h
  obtain ⟨rfl, rfl⟩ := Prod.mk.inj same
  exact ⟨before', rfl, found⟩

/-- A dollar sign in the text of a template literal stands for itself unless a brace follows. -/
theorem Completes.templateChar {c : Char} {t rest : List Char} (done : Completes .template t)
    (lead : t <+: rest) (ne_end : c ≠ '`') (ne_escape : c ≠ '\\')
    (starts_none : ¬ (c = '$' ∧ rest.head? = some '{')) : Completes .template (c :: t) := by
  obtain ⟨body, code, rfl, inner, behind⟩ := done
  refine ⟨c :: body, code, rfl, .templateChar ne_end ne_escape (fun dollar => ?_) inner, behind⟩
  cases body with
  | nil => simp
  | cons d body =>
    obtain ⟨after, rfl⟩ := lead
    exact fun same => starts_none ⟨dollar, same⟩

/-- The brace behind a dollar sign starts a substitution. -/
theorem Completes.substitution {t rest : List Char} (done : Completes .dollar t) (lead : t <+: rest)
    (brace : rest.head? = some '{') : Completes .template ('$' :: t) := by
  obtain ⟨c, inner, body, code, rfl, balanced, template, behind⟩ := done
  obtain ⟨after, rfl⟩ := lead
  obtain rfl : c = '{' := by simpa using brace
  exact ⟨'$' :: '{' :: (inner ++ '}' :: body), code, by simp, .substitution balanced template,
    behind⟩

/-- Whether all that is split off from a text in front of `after` closes the open braces. -/
def SplitsSoundly (after text : List Char) : Prop :=
  ∀ mode inner before, splitAtClosing mode (inner ++ [.plain]) text = some (before, after) →
    text = before ++ '}' :: after ∧ Closes mode inner before

section

variable {after rest before : List Char} {inner : List OpenBrace} {c : Char}
  (behind : SplitsSoundly after rest)
include behind

/-- A character that leaves the open braces as they are. -/
theorem SplitsSoundly.step {mode mode' : BraceMode}
    (found : keepAll [c] (splitAtClosing mode' (inner ++ [.plain]) rest) = some (before, after))
    (completes : ∀ t, t <+: rest → Completes mode' t → Completes mode (c :: t)) :
    c :: rest = before ++ '}' :: after ∧ Closes mode inner before := by
  obtain ⟨before', rfl, split⟩ := keepAll_eq_some found
  obtain ⟨rfl, closes⟩ := behind _ _ _ split
  refine ⟨rfl, closes.append fun t lead done => ?_⟩
  exact completes t (lead.trans (List.prefix_append before' _)) done

/-- A brace that opens. -/
theorem SplitsSoundly.opening {mode : BraceMode} (brace : OpenBrace)
    (found : keepAll [c] (splitAtClosing .code (brace :: inner ++ [.plain]) rest) =
      some (before, after))
    (completes : ∀ body t, Balanced .code body → Completes brace.around.mode t →
      Completes mode ([c] ++ body ++ '}' :: t)) :
    c :: rest = before ++ '}' :: after ∧ Closes mode inner before := by
  obtain ⟨before', rfl, split⟩ := keepAll_eq_some found
  obtain ⟨rfl, closes⟩ := behind _ _ _ split
  exact ⟨rfl, closes.braced completes⟩

/-- A brace that closes. -/
theorem SplitsSoundly.closing
    (h : splitAtClosing .code (inner ++ [.plain]) ('}' :: rest) = some (before, after)) :
    '}' :: rest = before ++ '}' :: after ∧ Closes .code inner before := by
  cases inner with
  | nil =>
    rw [List.nil_append, splitAtClosing_outermost] at h
    obtain ⟨rfl, rfl⟩ := Prod.mk.inj (Option.some.inj h)
    exact ⟨rfl, Balanced.nil⟩
  | cons brace outer =>
    rw [List.cons_append, splitAtClosing_close _ _ brace (by simp)] at h
    obtain ⟨before', rfl, split⟩ := keepAll_eq_some h
    obtain ⟨rfl, closes⟩ := behind _ _ _ split
    exact ⟨rfl, [], before', rfl, Balanced.nil, closes⟩

theorem SplitsSoundly.code
    (h : splitAtClosing .code (inner ++ [.plain]) (c :: rest) = some (before, after)) :
    c :: rest = before ++ '}' :: after ∧ Closes .code inner before := by
  -- the tests come in the order in which the scanner makes them
  by_cases isQuote : c = '"' ∨ c = '\''
  · rw [splitAtClosing_quote _ _ isQuote] at h
    refine behind.step h fun t _ done => ?_
    obtain ⟨body, code, rfl, quoted, tail⟩ := done
    exact .string isQuote quoted tail
  by_cases backtick : c = '`'
  · subst backtick
    rw [splitAtClosing_backtick] at h
    refine behind.step h fun t _ done => ?_
    obtain ⟨body, code, rfl, template, tail⟩ := done
    exact .literal template tail
  by_cases isOpening : c = '{'
  · subst isOpening
    rw [splitAtClosing_open] at h
    exact behind.opening .plain h fun body t balanced done => .braces balanced done
  by_cases isClosing : c = '}'
  · subst isClosing
    exact behind.closing h
  have isPlain : c ∉ ['"', '\'', '`', '{', '}'] := by
    rw [not_or] at isQuote
    simp [isQuote, backtick, isOpening, isClosing]
  rw [splitAtClosing_plain _ _ isPlain] at h
  exact behind.step h fun t _ done => .plain isPlain done

theorem SplitsSoundly.quoted {quote : Char}
    (h : splitAtClosing (.quoted quote) (inner ++ [.plain]) (c :: rest) = some (before, after)) :
    c :: rest = before ++ '}' :: after ∧ Closes (.quoted quote) inner before := by
  by_cases isEscape : c = '\\'
  · subst isEscape
    simp only [splitAtClosing, ite_true, keep_eq] at h
    refine behind.step h fun t _ done => ?_
    obtain ⟨d, body, code, rfl, quoted, tail⟩ := done
    exact ⟨'\\' :: d :: body, code, rfl, .quotedEscape quoted, tail⟩
  by_cases isEnd : c = quote
  · subst isEnd
    rw [splitAtClosing_unquote _ _ isEscape] at h
    exact behind.step h fun t _ done => ⟨[], t, rfl, .nil, done⟩
  rw [splitAtClosing_quotedChar _ _ isEnd isEscape] at h
  refine behind.step h fun t _ done => ?_
  obtain ⟨body, code, rfl, quoted, tail⟩ := done
  exact ⟨c :: body, code, rfl, .quotedChar isEnd isEscape quoted, tail⟩

theorem SplitsSoundly.template
    (h : splitAtClosing .template (inner ++ [.plain]) (c :: rest) = some (before, after)) :
    c :: rest = before ++ '}' :: after ∧ Closes .template inner before := by
  by_cases isEscape : c = '\\'
  · subst isEscape
    simp only [splitAtClosing, ite_true, keep_eq] at h
    refine behind.step h fun t _ done => ?_
    obtain ⟨d, body, code, rfl, template, tail⟩ := done
    exact ⟨'\\' :: d :: body, code, rfl, .templateEscape template, tail⟩
  by_cases isEnd : c = '`'
  · subst isEnd
    rw [splitAtClosing_untemplate] at h
    exact behind.step h fun t _ done => ⟨[], t, rfl, .nil, done⟩
  by_cases starts : c = '$' ∧ rest.head? = some '{'
  · obtain ⟨rfl, brace⟩ := starts
    have moved : splitAtClosing .template (inner ++ [.plain]) ('$' :: rest) =
        keepAll ['$'] (splitAtClosing .dollar (inner ++ [.plain]) rest) := by
      simp [splitAtClosing, brace, keep_eq]
    rw [moved] at h
    exact behind.step h fun t lead done => done.substitution lead brace
  have none : c = '$' → rest.head? ≠ some '{' := fun dollar brace => starts ⟨dollar, brace⟩
  rw [splitAtClosing_templateChar _ _ isEnd isEscape none] at h
  exact behind.step h fun t lead done => done.templateChar lead isEnd isEscape starts

end

/-- What is split off closes the open braces. -/
theorem splitsSoundly (after text : List Char) : SplitsSoundly after text := by
  induction text with
  | nil =>
    intro mode inner before h
    cases mode <;> simp [splitAtClosing] at h
  | cons c rest ih =>
    intro mode inner before h
    cases mode with
    | code => exact ih.code h
    | quoted quote => exact ih.quoted h
    -- behind a backslash any character belongs to the literal
    | quotedEscape quote =>
      simp only [splitAtClosing, keep_eq] at h
      refine ih.step h fun t _ done => ?_
      obtain ⟨body, code, rfl, quoted, tail⟩ := done
      exact ⟨c, body, code, rfl, quoted, tail⟩
    | template => exact ih.template h
    | templateEscape =>
      simp only [splitAtClosing, keep_eq] at h
      refine ih.step h fun t _ done => ?_
      obtain ⟨body, code, rfl, template, tail⟩ := done
      exact ⟨c, body, code, rfl, template, tail⟩
    | dollar =>
      simp only [splitAtClosing, keep_eq] at h
      refine ih.opening .substitution h fun body t balanced done => ?_
      obtain ⟨text, code, rfl, template, tail⟩ := done
      exact ⟨c, body, text, code, by simp, balanced, template, tail⟩

/-- **Splitting at the matching brace follows the grammar of balanced text.** -/
theorem splitBraced_eq_some_iff {text code rest : List Char} :
    splitBraced text = some (code, rest) ↔ text = code ++ '}' :: rest ∧ Balanced .code code := by
  constructor
  · intro h
    have split : splitAtClosing .code ([] ++ [.plain]) text = some (code, rest) := h
    exact splitsSoundly rest text _ _ _ split
  · rintro ⟨rfl, balanced⟩
    have passed := splitAtClosing_of_balanced balanced [.plain] ('}' :: rest)
      (List.cons_ne_nil _ _) nofun
    rw [Region.mode, splitAtClosing_outermost] at passed
    simpa [splitBraced, keepAll] using passed

end ReactiveMarkup.Markup
