import ReactiveMarkup.Compilation
import ReactiveMarkup.Proofs.BalancedBraces

/-!
# Interpolated expressions

An expression in markup ends at the brace that matches its first one, and the matching brace is
found without reading the expression. Between braces a whole expression is therefore read as it is
read alone if and only if its own text is balanced. Characters in comments and regular expressions
count like all others there, so an apostrophe in a comment is enough to lose the end.
-/

namespace ReactiveMarkup

open Markup (Balanced splitBraced splitBraced_eq_some_iff behindBrace? readExpressionAt)

/-- Whether a text is one expression, with nothing but white space and comments left over. -/
def Script.isWholeExpression (text : List Char) : Bool :=
  match (Script.grammar (Script.depthFor text)).expression .topLevel (.start text) with
  | some (_, s) => s.isSound && s.token.kind == .ended
  | none => false

/-- A whole expression is accepted. -/
theorem Script.exists_parseExpression? {text : List Char}
    (whole : Script.isWholeExpression text = true) (next : Nat) :
    ∃ tree n, Script.parseExpression? text next = some (tree, n) := by
  unfold Script.isWholeExpression at whole
  split at whole
  next phrase s read =>
    rw [Bool.and_eq_true] at whole
    have tree : Script.readExpression? text = some phrase.tree := by
      simp [Script.readExpression?, Script.runReader, read, whole.1]
    exact ⟨_, _, by rw [Script.parseExpression?, tree]; rfl⟩
  next => cases whole

/-- Two texts of the same size that start the same text are the same. -/
theorem Text.eq_of_append_eq {s s' t t' : List Char} (same : s ++ t = s' ++ t')
    (size : Text.byteSize s = Text.byteSize s') : s = s' := by
  have taken := Text.takeBytes_byteSize_append s t
  rw [same, size, Text.takeBytes_byteSize_append, Text.takeBytes_zero, Text.takeBytes_zero,
    List.append_nil, List.append_nil] at taken
  exact taken.symm

theorem behindBrace?_one (text : List Char) : behindBrace? ('{' :: text) 1 = some text := by
  simp [behindBrace?]

/-- An expression between braces is read if the matching brace is the one behind it. -/
theorem readExpressionAt_eq_ok_iff {scripts : Markup.ScriptReader} {code rest : List Char}
    {next n : Nat} {tree : Script.Expression}
    (accepted : scripts.expression code next = some (tree, n)) :
    readExpressionAt scripts ('{' :: (code ++ '}' :: rest)) 1 next =
        .ok ⟨tree, 1 + Text.byteSize code, n⟩ ↔
      Balanced .code code := by
  constructor
  · intro read
    rw [readExpressionAt, behindBrace?_one, Option.bind_some] at read
    split at read
    next => cases read
    next inner after split =>
      obtain ⟨whole, balanced⟩ := splitBraced_eq_some_iff.1 split
      dsimp only at read
      split at read
      next => cases read
      next found n' accepted' =>
        have size := congrArg Markup.Interpolated.stop (Except.ok.inj read)
        have same : inner = code := Text.eq_of_append_eq whole.symm (by simpa using size)
        exact same ▸ balanced
  · intro balanced
    have split : splitBraced (code ++ '}' :: rest) = some (code, rest) :=
      splitBraced_eq_some_iff.2 ⟨rfl, balanced⟩
    rw [readExpressionAt, behindBrace?_one, Option.bind_some, split]
    simp [accepted]

theorem parseExpressionAt_eq_ok_iff {source file : String} {offset next : Nat}
    {found : Markup.Interpolated} :
    parseExpressionAt source offset next file = .ok found ↔
      readExpressionAt scriptReader source.toList offset next = .ok found := by
  rw [parseExpressionAt]
  cases readExpressionAt scriptReader source.toList offset next with
  | ok value =>
    constructor
    · intro read
      obtain rfl : value = found := Except.ok.inj read
      rfl
    · intro read
      obtain rfl : value = found := Except.ok.inj read
      rfl
  | error =>
    constructor
    · intro read
      cases read
    · intro read
      cases read

/-- A whole expression is accepted, and between braces it is read as it is read alone, up to the
brace behind it, if and only if its text is balanced. -/
theorem interpolated_iff_balanced (code rest file : String) (next : Nat)
    (whole : Script.isWholeExpression code.toList = true) :
    ∃ tree n, Script.parseExpression? code.toList next = some (tree, n) ∧
      (parseExpressionAt ("\x7b" ++ code ++ "\x7d" ++ rest) 1 next file =
          .ok ⟨tree, 1 + Text.byteSize code.toList, n⟩ ↔
        Balanced .code code.toList) := by
  obtain ⟨tree, n, accepted⟩ := Script.exists_parseExpression? whole next
  refine ⟨tree, n, accepted, ?_⟩
  have text : ("\x7b" ++ code ++ "\x7d" ++ rest).toList =
      '{' :: (code.toList ++ '}' :: rest.toList) := by simp
  rw [parseExpressionAt_eq_ok_iff, text]
  exact readExpressionAt_eq_ok_iff accepted

/-- Braces in a string and in a template literal do not displace the end. -/
theorem interpolated_braces_in_literals :
    Script.isWholeExpression "'\x7d' + `\x7b $\x7bn\x7d`".toList = true ∧
      ∃ tree n, Script.parseExpression? "'\x7d' + `\x7b $\x7bn\x7d`".toList 0 = some (tree, n) ∧
        parseExpressionAt ("\x7b" ++ "'\x7d' + `\x7b $\x7bn\x7d`" ++ "\x7d" ++ "</p>") 1 0 "page" =
          .ok ⟨tree, 15, n⟩ := by
  have whole : Script.isWholeExpression "'\x7d' + `\x7b $\x7bn\x7d`".toList = true := by
    decide +kernel
  have split : splitBraced "'\x7d' + `\x7b $\x7bn\x7d`\x7d".toList =
      some ("'\x7d' + `\x7b $\x7bn\x7d`".toList, []) := by
    decide +kernel
  obtain ⟨tree, n, accepted, read⟩ := interpolated_iff_balanced _ "</p>" "page" 0 whole
  have size : Text.byteSize "'\x7d' + `\x7b $\x7bn\x7d`".toList = 14 := by decide +kernel
  rw [size] at read
  exact ⟨whole, tree, n, accepted, read.2 (splitBraced_eq_some_iff.1 split).2⟩

/-- An apostrophe in a comment takes the closing brace for part of a string. -/
theorem unread_expression_with_comment :
    Script.isWholeExpression "count /* it's */".toList = true ∧
      ∀ found,
        parseExpressionAt ("\x7b" ++ "count /* it's */" ++ "\x7d") 1 0 "page" ≠ .ok found := by
  refine ⟨by decide +kernel, fun found read => ?_⟩
  have text : ("\x7b" ++ "count /* it's */" ++ "\x7d").toList =
      '{' :: "count /* it's */\x7d".toList := by decide +kernel
  have unmatched : splitBraced "count /* it's */\x7d".toList = none := by decide +kernel
  rw [parseExpressionAt_eq_ok_iff, text, readExpressionAt, behindBrace?_one, Option.bind_some,
    unmatched] at read
  cases read

end ReactiveMarkup
