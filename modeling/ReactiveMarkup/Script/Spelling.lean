import ReactiveMarkup.Script.Lexer

/-!
# Spelling

A word that is scanned is spelled as names are, also where it is written with escapes. The other
ways of reading a token give no words.
-/

namespace ReactiveMarkup.Script

/-- Whether a word is spelled as names are. -/
def isSpelled (word : String) : Bool :=
  match word.toList with
  | [] => false
  | c :: rest => Text.isIdentifierStart c && rest.all Text.isIdentifierPart

/-- Whether some characters are the start of a name, or none. -/
def startsName : List Char → Bool
  | [] => true
  | c :: rest => Text.isIdentifierStart c && rest.all Text.isIdentifierPart

theorem startsName_snoc {taken : List Char} (starts : startsName taken.reverse = true) {c : Char}
    (fits : fitsName taken.isEmpty c = true) : startsName (c :: taken).reverse = true := by
  cases eq : taken.reverse with
  | nil =>
    obtain rfl := List.reverse_eq_nil_iff.1 eq
    simpa [startsName, fitsName] using fits
  | cons first rest =>
    have started : taken.isEmpty = false := by
      cases taken with
      | nil => cases eq
      | cons _ _ => rfl
    rw [eq] at starts
    simp only [startsName, Bool.and_eq_true] at starts
    rw [fitsName, started, if_neg (by decide)] at fits
    simp [startsName, eq, starts.1, fits]
    exact List.all_eq_true.1 starts.2

theorem isSpelled_of_endName {taken : List Char} (starts : startsName taken.reverse = true)
    {escaped : Bool} {stop : Cursor} {scan : NameScan}
    (ended : endName taken escaped stop = some scan) :
    isSpelled (String.ofList scan.text) = true := by
  unfold endName at ended
  split at ended
  · cases ended
  · rename_i started
    cases ended
    cases eq : taken.reverse with
    | nil =>
      obtain rfl := List.reverse_eq_nil_iff.1 eq
      exact absurd rfl started
    | cons first rest =>
      rw [eq] at starts
      simpa [isSpelled, eq, startsName] using starts

theorem isSpelled_of_scanName {mode : Option EscapeMode} {taken : List Char} {escaped : Bool}
    {index : Nat} {text : List Char} {scan : NameScan}
    (scanned : scanName mode taken escaped index text = some scan)
    (starts : startsName taken.reverse = true) :
    isSpelled (String.ofList scan.text) = true := by
  fun_induction scanName mode taken escaped index text with
  | case1 => exact isSpelled_of_endName starts scanned
  | case2 => cases scanned
  | case3 taken escaped index rest ih => exact ih scanned starts
  | case4 taken escaped index c rest other fits ih =>
    exact ih scanned (startsName_snoc starts fits)
  | case5 => exact isSpelled_of_endName starts scanned
  | case6 taken escaped index rest ih => exact ih scanned starts
  | case7 => cases scanned
  | case8 taken escaped index c rest mode other mode' move ih => exact ih scanned starts
  | case9 taken escaped index c rest mode other code move fits ih =>
    exact ih scanned (startsName_snoc starts fits)
  | case10 => cases scanned
  | case11 => cases scanned

/-- Whether a token, if it is a word, is spelled as names are. -/
def Token.IsSpelled (t : Token) : Prop :=
  ∀ text escaped, t.kind = .word text escaped → isSpelled text = true

theorem isSpelled_scanToken (place : Cursor) : (scanToken place).IsSpelled := by
  intro text escaped kind
  unfold scanToken at kind
  dsimp only at kind
  split at kind
  · generalize (skipGap .blank false place.index place.rest).stop = start at kind
    unfold scanAt at kind
    split at kind
    · cases kind
    · split at kind
      · split at kind
        · rename_i scan scanned
          cases kind
          exact isSpelled_of_scanName scanned rfl
        · cases kind
      all_goals
        repeat' split at kind
        all_goals cases kind
  · cases kind

theorem Token.IsSpelled.asClosingAngle {t : Token} (spelled : t.IsSpelled) :
    t.asClosingAngle.IsSpelled := by
  unfold Token.asClosingAngle
  split
  · intro text escaped kind
    cases kind
  · exact spelled

theorem isSpelled_asRegularExpression (t : Token) : t.asRegularExpression.IsSpelled := by
  unfold Token.asRegularExpression
  split <;> intro text escaped kind <;> cases kind

theorem isSpelled_asTemplate (t : Token) : t.asTemplate.IsSpelled := by
  unfold Token.asTemplate
  split <;> intro text escaped kind <;> cases kind

end ReactiveMarkup.Script
