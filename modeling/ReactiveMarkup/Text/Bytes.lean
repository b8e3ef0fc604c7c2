/-!
# Byte measure of text

Offsets into a text count the bytes of its UTF-8 form. This module measures a list of characters
in bytes and cuts it at byte offsets. Only offsets that fall between two characters cut a text in
two: `dropBytes?` refuses the others, and `takeBytes` stops before the character they fall into.

A text is looked for in another at its start (`stripLead?`), at its first occurrence (`splitAt?`)
and wherever it occurs (`replaceAll`).
-/

namespace ReactiveMarkup.Text

/-- Number of bytes of the UTF-8 form. -/
def byteSize : List Char → Nat
  | [] => 0
  | c :: rest => c.utf8Size + byteSize rest

@[simp] theorem byteSize_nil : byteSize [] = 0 := rfl

@[simp] theorem byteSize_cons (c : Char) (rest : List Char) :
    byteSize (c :: rest) = c.utf8Size + byteSize rest := rfl

@[simp] theorem byteSize_append (s t : List Char) :
    byteSize (s ++ t) = byteSize s + byteSize t := by
  induction s with
  | nil => simp
  | cons c rest ih => simp [ih, Nat.add_assoc]

/-- The longest leading part of at most `n` bytes. -/
def takeBytes : Nat → List Char → List Char
  | _, [] => []
  | n, c :: rest =>
    if c.utf8Size ≤ n then c :: takeBytes (n - c.utf8Size) rest else []

/-- What stands after the first `n` bytes, provided that a character ends there. -/
def dropBytes? : Nat → List Char → Option (List Char)
  | 0, text => some text
  | _ + 1, [] => none
  | n + 1, c :: rest =>
    if c.utf8Size ≤ n + 1 then dropBytes? (n + 1 - c.utf8Size) rest else none

@[simp] theorem dropBytes?_zero (text : List Char) : dropBytes? 0 text = some text := by
  cases text <;> rfl

theorem takeBytes_byteSize_append (s t : List Char) :
    takeBytes (byteSize s) (s ++ t) = s ++ takeBytes 0 t := by
  induction s with
  | nil => simp
  | cons c rest ih => simp [takeBytes, ih]

theorem takeBytes_zero (t : List Char) : takeBytes 0 t = [] := by
  cases t with
  | nil => rfl
  | cons c rest =>
    have := c.utf8Size_pos
    simp [takeBytes]
    omega

theorem dropBytes?_byteSize_append (s t : List Char) :
    dropBytes? (byteSize s) (s ++ t) = some t := by
  induction s with
  | nil => simp
  | cons c rest ih =>
    obtain ⟨k, hk⟩ : ∃ k, c.utf8Size = k + 1 := ⟨c.utf8Size - 1, by have := c.utf8Size_pos; omega⟩
    have size : byteSize (c :: rest) = k + byteSize rest + 1 := by simp [hk]; omega
    rw [size, List.cons_append, dropBytes?, hk, if_pos (by omega)]
    have gap : k + byteSize rest + 1 - (k + 1) = byteSize rest := by omega
    rw [gap, ih]

theorem dropBytes?_eq_some_iff {n : Nat} {text rest : List Char} :
    dropBytes? n text = some rest ↔ ∃ lead, text = lead ++ rest ∧ byteSize lead = n := by
  constructor
  · intro h
    fun_induction dropBytes? n text with
    | case1 text => exact ⟨[], Option.some.inj h, rfl⟩
    | case2 => cases h
    | case3 n c tail fits ih =>
      obtain ⟨lead, rfl, size⟩ := ih h
      exact ⟨c :: lead, rfl, by rw [byteSize_cons]; omega⟩
    | case4 => cases h
  · rintro ⟨lead, rfl, rfl⟩
    exact dropBytes?_byteSize_append lead rest

/-- What stands after `lead`, if the text starts with it. -/
def stripLead? : List Char → List Char → Option (List Char)
  | [], text => some text
  | _ :: _, [] => none
  | l :: lead, c :: text => if l = c then stripLead? lead text else none

theorem stripLead?_eq_some_iff {lead text rest : List Char} :
    stripLead? lead text = some rest ↔ text = lead ++ rest := by
  induction lead generalizing text with
  | nil => simp [stripLead?]
  | cons l lead ih =>
    cases text with
    | nil => simp [stripLead?]
    | cons c text =>
      by_cases h : l = c
      · simp [stripLead?, h, ih]
      · simp [stripLead?, h, Ne.symm h]

/-- Whether a text starts with `lead`. -/
def startsWith (text lead : String) : Bool :=
  lead.toList.isPrefixOf text.toList

/-- Splits a text at the first occurrence of `mark`: what stands before it and what follows it. -/
def splitAt? (mark : List Char) : List Char → Option (List Char × List Char)
  | [] => (stripLead? mark []).map ([], ·)
  | c :: rest =>
    match stripLead? mark (c :: rest) with
    | some after => some ([], after)
    | none => (splitAt? mark rest).map fun (before, after) => (c :: before, after)

/-- The rest of a text with the occurrences of `mark` replaced by `new`, when the first `skip`
characters belong to an occurrence that has been replaced. -/
def replaceFrom (mark new : List Char) : Nat → List Char → List Char
  | _, [] => []
  | skip + 1, _ :: rest => replaceFrom mark new skip rest
  | 0, c :: rest =>
    if mark.isPrefixOf (c :: rest) then new ++ replaceFrom mark new (mark.length - 1) rest
    else c :: replaceFrom mark new 0 rest

/-- A text with each occurrence of `mark`, which is not empty, replaced by `new`, from left to
right. What replaces an occurrence is not searched. -/
def replaceAll (mark new text : List Char) : List Char := replaceFrom mark new 0 text

section

variable {mark : List Char} (new : List Char)

theorem replaceFrom_append (lead rest : List Char) :
    replaceFrom mark new lead.length (lead ++ rest) = replaceAll mark new rest := by
  induction lead with
  | nil => rfl
  | cons c lead ih => exact ih

theorem replaceAll_append (visible : mark ≠ []) (rest : List Char) :
    replaceAll mark new (mark ++ rest) = new ++ replaceAll mark new rest := by
  obtain ⟨c, lead, rfl⟩ := List.exists_cons_of_ne_nil visible
  have here : (c :: lead).isPrefixOf (c :: (lead ++ rest)) = true :=
    List.isPrefixOf_iff_prefix.2 (List.prefix_append (c :: lead) rest)
  rw [List.cons_append, replaceAll, replaceFrom, if_pos here]
  exact congrArg (new ++ ·) (replaceFrom_append new lead rest)

theorem replaceAll_cons {c : Char} {rest : List Char} (absent : ¬ mark <+: c :: rest) :
    replaceAll mark new (c :: rest) = c :: replaceAll mark new rest := by
  rw [replaceAll, replaceFrom, if_neg (mt List.isPrefixOf_iff_prefix.1 absent)]
  rfl

/-- To replace a character is to look at each character alone. -/
theorem replaceAll_singleton (m : Char) (text : List Char) :
    replaceAll [m] new text = text.flatMap fun c => if c = m then new else [c] := by
  induction text with
  | nil => rfl
  | cons c rest ih =>
    by_cases found : c = m
    · subst found
      simpa [ih] using replaceAll_append new (List.cons_ne_nil c []) rest
    · rw [replaceAll_cons new (by simpa using Ne.symm found)]
      simp [ih, found]

end

end ReactiveMarkup.Text
