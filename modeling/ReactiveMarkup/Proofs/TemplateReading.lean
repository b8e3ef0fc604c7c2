import ReactiveMarkup.Proofs.CodeTokens
import ReactiveMarkup.Proofs.RenderedMarkup

/-!
# Rendered templates read back

The server module returns one template literal. It is read here the way a reader of code reads it:
`readStretch?` takes the text up to the first backtick or `${` that no backslash escapes and says
what it stands for, and `readTemplate?` goes on behind the code of each slot. Reading the printed
template gives back its texts and slots, whatever characters the markup holds
(`rendered_template_readsBack`).

Two facts carry this. The lexer stays in the text while it passes over escaped text
(`staysInText_templateText`), also when the text ends in a dollar sign: what follows then is the
backtick or the dollar sign of a slot, never a bare brace. And no two literals are next to each
other, so behind each one the printed template has its end or a slot.
-/

namespace ReactiveMarkup.Emission

open Script (scanTemplate scanTemplate_next templateMove templateTextMove templatePoints unifyLines
  TemplateMode)

/-! ## Reading template literals -/

/-- A stretch of the text of a template literal, as it is read. -/
structure TemplateStretch where
  /-- The code points that the text stands for. -/
  cooked : List Nat
  /-- Whether the literal ends behind the text; otherwise a slot opens there. -/
  closed : Bool
  /-- What stands behind the backtick or the brace. -/
  behind : List Char

/-- Reads the text of a template literal up to its end or to the next slot. -/
def readStretch? (text : List Char) : Option TemplateStretch := do
  let scan ← scanTemplate .text true 0 text
  let source := text.take (scan.stop.index - if scan.closed then 1 else 2)
  let cooked ← templatePoints none (unifyLines source)
  some ⟨cooked, scan.closed, scan.stop.rest⟩

/-- Reads a template literal from behind its first backtick, given the code of its slots: what its
texts stand for, and what stands behind the literal. -/
def readTemplate? : List (List Char) → List Char → Option (List (List Nat) × List Char)
  | [], text => do
    let stretch ← readStretch? text
    if stretch.closed then some ([stretch.cooked], stretch.behind) else none
  | code :: codes, text => do
    let stretch ← readStretch? text
    if stretch.closed then none
    else
      let behind ← Text.stripLead? (code ++ ['}']) stretch.behind
      let (cooked, rest) ← readTemplate? codes behind
      some (stretch.cooked :: cooked, rest)

/-! ## Escaped text -/

/-- Whether the lexer is in the text of a template literal, outside escapes. -/
def IsInText (mode : TemplateMode) : Prop := mode = .text ∨ mode = .dollar

/-- Whether the lexer passes over a piece of a template literal and stays in the text. -/
def StaysInText (mode : TemplateMode) (piece : List Char) : Prop :=
  ∃ mode', IsInText mode' ∧ ∀ index rest,
    scanTemplate mode true index (piece ++ rest) =
      scanTemplate mode' true (index + piece.length) rest

theorem StaysInText.nil {mode : TemplateMode} (inText : IsInText mode) : StaysInText mode [] :=
  ⟨mode, inText, fun _ _ => rfl⟩

theorem StaysInText.cons {mode mode' : TemplateMode} {c : Char} {piece : List Char}
    (move : templateMove mode c = (mode', true)) (goes_on : mode' ≠ .closed)
    (opens_none : mode' ≠ .substitution) (stays : StaysInText mode' piece) :
    StaysInText mode (c :: piece) := by
  obtain ⟨last, inText, read⟩ := stays
  refine ⟨last, inText, fun index rest => ?_⟩
  rw [List.cons_append, scanTemplate_next move goes_on opens_none, Bool.true_and, read,
    List.length_cons, Nat.add_assoc, Nat.add_comm 1]

/-- A character that is written as it is. -/
theorem StaysInText.plain {mode : TemplateMode} (inText : IsInText mode) {c : Char}
    {piece : List Char} (isPlain : c ∉ ['`', '\\']) (opens_none : mode = .dollar → c ≠ '{')
    (stays : StaysInText (if c = '$' then .dollar else .text) piece) :
    StaysInText mode (c :: piece) := by
  simp only [List.mem_cons, List.not_mem_nil, or_false, not_or] at isPlain
  have move : templateMove mode c = (if c = '$' then .dollar else .text, true) := by
    rcases inText with rfl | rfl
    · simp [templateMove, templateTextMove, isPlain]
    · simp [templateMove, templateTextMove, isPlain, opens_none rfl]
  refine .cons move ?_ ?_ stays <;> split <;> simp

/-- A delimiter behind a backslash. -/
theorem StaysInText.escape {mode : TemplateMode} (inText : IsInText mode) {c : Char}
    {piece : List Char} (delimiter : c = '\\' ∨ c = '`' ∨ c = '$')
    (stays : StaysInText .text piece) : StaysInText mode ('\\' :: c :: piece) := by
  have opens : templateMove mode '\\' = (.escape .backslash, true) := by
    rcases inText with rfl | rfl <;> rfl
  have done : templateMove (.escape .backslash) c = (.text, true) := by
    rcases delimiter with rfl | rfl | rfl <;> rfl
  exact .cons opens nofun nofun (.cons done nofun nofun stays)

/-- The lexer passes over escaped text: it finds neither the end of the literal nor a slot. -/
theorem staysInText_templateText (text : List Char) {mode : TemplateMode} (inText : IsInText mode)
    (opens_none : mode = .dollar → text.head? ≠ some '{') :
    StaysInText mode (templateText text) := by
  fun_induction templateText text generalizing mode with
  | case1 => exact .nil inText
  | case2 more ih => exact .escape inText (.inl rfl) (ih (.inl rfl) (by simp))
  | case3 more ih => exact .escape inText (.inr (.inl rfl)) (ih (.inl rfl) (by simp))
  | case4 more ih =>
    -- behind an escaped dollar sign a brace is text
    exact .escape inText (.inr (.inr rfl))
      (.plain (.inl rfl) (by decide) (by simp) (ih (.inl rfl) (by simp)))
  | case5 c more not_backslash not_backtick no_slot ih =>
    have isPlain : c ∉ ['`', '\\'] := by
      simp only [List.mem_cons, List.not_mem_nil, or_false, not_or]
      exact ⟨not_backtick, not_backslash⟩
    refine .plain inText isPlain (fun dollar brace => opens_none dollar (by rw [brace]; rfl)) ?_
    by_cases dollar : c = '$'
    · rw [if_pos dollar]
      refine ih (.inr rfl) fun _ next => ?_
      obtain ⟨rest, rfl⟩ := List.head?_eq_some_iff.1 next
      exact no_slot rest dollar rfl
    · rw [if_neg dollar]
      exact ih (.inl rfl) (by simp)

theorem templateText_cons {c : Char} {rest : List Char} (isPlain : c ∉ ['`', '\\'])
    (opens_none : c = '$' → rest.head? ≠ some '{') :
    templateText (c :: rest) = c :: templateText rest := by
  simp only [List.mem_cons, List.not_mem_nil, or_false, not_or] at isPlain
  refine templateText.eq_5 c rest isPlain.2 isPlain.1 ?_
  rintro more rfl rfl
  exact opens_none rfl rfl

theorem head?_templateText_eq_lineFeed_iff (text : List Char) :
    (templateText text).head? = some '\n' ↔ text.head? = some '\n' := by
  fun_cases templateText text <;> simp

theorem head?_of_head?_unifyLines {text : List Char} (brace : (unifyLines text).head? = some '{') :
    text.head? = some '{' := by
  fun_induction unifyLines text <;> simp_all

/-- Escaping leaves line ends alone. -/
theorem unifyLines_templateText (text : List Char) :
    unifyLines (templateText text) = templateText (unifyLines text) := by
  fun_induction templateText text with
  | case1 => rfl
  | case2 more ih => simp [unifyLines, templateText, ih]
  | case3 more ih => simp [unifyLines, templateText, ih]
  | case4 more ih => simp [unifyLines, templateText, ih]
  | case5 c more not_backslash not_backtick no_slot ih =>
    rw [unifyLines, unifyLines, ih]
    by_cases isReturn : c = '\r'
    · rw [if_pos isReturn, if_pos isReturn]
      by_cases lineFeed : more.head? = some '\n'
      · rw [if_pos lineFeed, if_pos ((head?_templateText_eq_lineFeed_iff more).2 lineFeed)]
      · rw [if_neg lineFeed, if_neg (mt (head?_templateText_eq_lineFeed_iff more).1 lineFeed),
          templateText_cons (by decide) fun dollar => absurd dollar (by decide)]
    · rw [if_neg isReturn, if_neg isReturn, templateText_cons]
      · simp only [List.mem_cons, List.not_mem_nil, or_false, not_or]
        exact ⟨not_backtick, not_backslash⟩
      · intro dollar brace
        obtain ⟨rest, rfl⟩ := List.head?_eq_some_iff.1 (head?_of_head?_unifyLines brace)
        exact no_slot rest dollar rfl

/-- Escaped text stands for the text. -/
theorem templatePoints_templateText (text : List Char) :
    templatePoints none (templateText text) = some (text.map Char.toNat) := by
  have escape : ∀ c, c = '\\' ∨ c = '`' ∨ c = '$' → ∀ rest,
      templatePoints none ('\\' :: c :: rest) = (templatePoints none rest).map (c.toNat :: ·) := by
    rintro c (rfl | rfl | rfl) rest <;> rfl
  fun_induction templateText text with
  | case1 => rfl
  | case2 more ih => rw [escape _ (.inl rfl), ih]; rfl
  | case3 more ih => rw [escape _ (.inr (.inl rfl)), ih]; rfl
  | case4 more ih =>
    rw [escape _ (.inr (.inr rfl)), templatePoints, if_neg (by decide), ih]; rfl
  | case5 c more not_backslash not_backtick no_slot ih =>
    rw [templatePoints, if_neg not_backslash, ih]; rfl

/-! ## Stretches -/

/-- The code points that a text stands for in a template literal. -/
def cooked (text : List Char) : List Nat := (unifyLines text).map Char.toNat

theorem readStretch?_of_scan (delimiter : List Char) {text rest : List Char} {closed : Bool}
    (width : delimiter.length = if closed then 1 else 2)
    (delimits : ∀ mode index, IsInText mode →
      scanTemplate mode true index (delimiter ++ rest) =
        some ⟨closed, true, ⟨rest, index + delimiter.length⟩⟩) :
    readStretch? (templateText text ++ (delimiter ++ rest)) = some ⟨cooked text, closed, rest⟩ := by
  obtain ⟨mode, inText, read⟩ := staysInText_templateText text (.inl rfl) nofun
  have source : (templateText text ++ (delimiter ++ rest)).take
      (0 + (templateText text).length + delimiter.length - if closed then 1 else 2) =
        templateText text := by
    rw [width, Nat.add_sub_cancel, Nat.zero_add, List.take_left]
  simp only [readStretch?, read, delimits _ _ inText, Option.bind_eq_bind, Option.bind_some, source,
    unifyLines_templateText, templatePoints_templateText]
  rfl

/-- The text in front of the end of a literal. -/
theorem readStretch?_closed (text rest : List Char) :
    readStretch? (templateText text ++ '`' :: rest) = some ⟨cooked text, true, rest⟩ := by
  refine readStretch?_of_scan ['`'] rfl ?_
  rintro mode index (rfl | rfl) <;> rfl

/-- The text in front of a slot. -/
theorem readStretch?_slot (text rest : List Char) :
    readStretch? (templateText text ++ '$' :: '{' :: rest) = some ⟨cooked text, false, rest⟩ := by
  refine readStretch?_of_scan ['$', '{'] rfl ?_
  rintro mode index (rfl | rfl) <;> rfl

/-! ## Templates -/

/-- The printed code of the slots of a template. -/
def slotCodes (depth : Nat) : List TemplatePart → List (List Char)
  | [] => []
  | .literal _ :: rest => slotCodes depth rest
  | .slot e :: rest => (e.print depth).toList :: slotCodes depth rest

/-- The texts of a template: one in front of each slot, and one behind the last. -/
def stretches : List TemplatePart → List (List Char)
  | [] => [[]]
  | .literal text :: rest => (stretches rest).modifyHead (text.toList ++ ·)
  | .slot _ :: rest => [] :: stretches rest

theorem readTemplate?_closed (text rest : List Char) :
    readTemplate? [] (templateText text ++ '`' :: rest) = some ([cooked text], rest) := by
  simp [readTemplate?, readStretch?_closed]

theorem readTemplate?_slot (text code : List Char) {codes : List (List Char)}
    {behind rest : List Char} {texts : List (List Nat)}
    (read : readTemplate? codes behind = some (texts, rest)) :
    readTemplate? (code :: codes) (templateText text ++ '$' :: '{' :: (code ++ '}' :: behind)) =
      some (cooked text :: texts, rest) := by
  have code_stripped : Text.stripLead? (code ++ ['}']) (code ++ '}' :: behind) = some behind := by
    rw [Text.stripLead?_eq_some_iff]
    simp
  simp [readTemplate?, readStretch?_slot, code_stripped, read]

/-- Whether no two literals of a template are next to each other. -/
def Apart (parts : List TemplatePart) : Prop :=
  parts.IsChain fun x y => x.isSlot = true ∨ y.isSlot = true

/-- A printed template is read back as its texts. -/
theorem readTemplate?_printAll (depth : Nat) (rest : List Char) :
    ∀ parts : List TemplatePart, Apart parts →
      readTemplate? (slotCodes depth parts)
          ((TemplatePart.printAll depth parts).toList ++ '`' :: rest) =
        some ((stretches parts).map cooked, rest)
  | [], _ => readTemplate?_closed [] rest
  | .slot e :: parts, apart => by
    have behind := readTemplate?_printAll depth rest parts (List.isChain_cons.1 apart).2
    simpa [TemplatePart.printAll, templateText, stretches, slotCodes] using
      readTemplate?_slot [] (e.print depth).toList behind
  | [.literal text], _ => by
    simpa [TemplatePart.printAll, stretches, slotCodes] using
      readTemplate?_closed text.toList rest
  | .literal text :: .slot e :: parts, apart => by
    have behind := readTemplate?_printAll depth rest parts
      (List.isChain_cons.1 (List.isChain_cons.1 apart).2).2
    simpa [TemplatePart.printAll, stretches, slotCodes] using
      readTemplate?_slot text.toList (e.print depth).toList behind
  | .literal text :: .literal text' :: parts, apart => by
    simp [Apart, TemplatePart.isSlot] at apart

/-- Reads a template literal from its first backtick on, given the code of its slots. -/
def readTemplateLiteral? (codes : List (List Char)) : List Char →
    Option (List (List Nat) × List Char)
  | '`' :: text => readTemplate? codes text
  | _ => none

/-- A printed template literal is read back as its texts, and nothing behind it is read. -/
theorem readTemplateLiteral?_print (depth : Nat) {parts : List TemplatePart} (apart : Apart parts)
    (rest : List Char) :
    readTemplateLiteral? (slotCodes depth parts)
        (((Expression.template parts).print depth).toList ++ rest) =
      some ((stretches parts).map cooked, rest) := by
  have printed : ((Expression.template parts).print depth).toList ++ rest =
      '`' :: ((TemplatePart.printAll depth parts).toList ++ '`' :: rest) := by
    simp [Expression.print]
  rw [printed, readTemplateLiteral?, readTemplate?_printAll depth rest parts apart]

/-- Whether a literal part, printed in front of some text, is read as the part's own text up to
where that text starts, which is the end of the literal or a slot. -/
def ReadsAs (part : String) (behind : List Char) : Prop :=
  ∃ stretch, readStretch? ((escapeTemplate part).toList ++ behind) = some stretch ∧
    stretch.cooked = cooked part.toList ∧
    behind = (if stretch.closed then ['`'] else ['$', '{']) ++ stretch.behind

/-- No delimiter is found in a literal part or across its border. -/
theorem readsAs_of_apart (depth : Nat) {before after : List TemplatePart} {text : String}
    (apart : Apart (before ++ .literal text :: after)) (rest : List Char) :
    ReadsAs text ((TemplatePart.printAll depth after).toList ++ '`' :: rest) := by
  have follows := (List.isChain_append.1 apart).2.1
  cases after with
  | nil =>
    refine ⟨⟨cooked text.toList, true, rest⟩, ?_, rfl, rfl⟩
    simpa [TemplatePart.printAll] using readStretch?_closed text.toList rest
  | cons part parts =>
    cases part with
    | literal => simp [TemplatePart.isSlot] at follows
    | slot e =>
      refine ⟨⟨cooked text.toList, false, (e.print depth).toList ++
        '}' :: ((TemplatePart.printAll depth parts).toList ++ '`' :: rest)⟩, ?_, rfl, ?_⟩
      · simpa [TemplatePart.printAll] using readStretch?_slot text.toList _
      · simp [TemplatePart.printAll]

end ReactiveMarkup.Emission

namespace ReactiveMarkup.Document

open Emission

/-- **The rendered template reads back as its parts.** The template that a server module returns has
no two literals next to each other. Printed, it is read as a template literal that ends where the
printed text ends, with the slots of the template and with its texts, up to unified line ends. In no
printed literal part, nor across its border, does the literal end or a slot open. -/
theorem rendered_template_readsBack (component : Component) (analysis : Analysis)
    (options : Options) (depth : Nat) (rest : List Char) :
    ∃ parts, returned? (Server.generate component analysis options).code = some parts ∧
      Apart parts ∧
      readTemplateLiteral? (slotCodes depth parts)
          (((Expression.template parts).print depth).toList ++ rest) =
        some ((stretches parts).map cooked, rest) ∧
      ∀ before text after, parts = before ++ .literal text :: after →
        ReadsAs text ((TemplatePart.printAll depth after).toList ++ '`' :: rest) := by
  have apart : Apart (Server.templateParts options.eventMarker component.html) := by
    rw [Server.templateParts_eq]
    exact (joins_mergeLiterals _).apart
  refine ⟨_, returned?_generate component analysis options, apart,
    readTemplateLiteral?_print depth apart rest, ?_⟩
  intro before text after eq
  rw [eq] at apart
  exact readsAs_of_apart depth apart rest

/-- Markup full of what delimits template literals. -/
def delimiters : Component where
  html :=
    [.text "\\`$\x7b",
      .element "p$" [⟨"`", .identifier "n"⟩] [.expression (.identifier "n")] 0]
  script := []

theorem rendered_template_readsBack_delimiters :
    ∃ parts, returned? (Server.generate delimiters (delimiters.analyze "on:").analysis {}).code =
        some parts ∧
      (Expression.template parts).print 1 =
        "`\\\\\\`\\$\x7b<!----><p$ \\`=\"$\x7b$$escape(n)\x7d\">" ++
          "$\x7b$$escape(n) || \"\\u200b\"\x7d<!----></p$>`" ∧
      ReadsAs "\\`$\x7b<!----><p$ `=\""
        "$\x7b$$escape(n)\x7d\">$\x7b$$escape(n) || \"\\u200b\"\x7d<!----></p$>`".toList := by
  obtain ⟨parts, returned, -, -, reads⟩ := rendered_template_readsBack delimiters
    (delimiters.analyze "on:").analysis {} 1 []
  rw [returned?_generate] at returned
  cases returned
  have read := reads [] "\\`$\x7b<!----><p$ `=\"" _ rfl
  refine ⟨_, returned?_generate _ _ _, ?_, read⟩
  decide +kernel

end ReactiveMarkup.Document
