import ReactiveMarkup.Client.Document
import ReactiveMarkup.Proofs.FragmentPosition

/-!
# Numbered bindings

The bindings of a client module are numbered one after the other, and the number is what a name ends
with: behind its last underscore there is nothing but digits. So names of different numbers differ,
whatever elements and events they are made of (`bindingName_inj`), and all bindings of a document
are distinct (`nodup_bindings`).
-/

namespace ReactiveMarkup.Client

/-! ## Names -/

theorem toList_bindingName (stem : String) (number : Nat) :
    (bindingName stem number).toList =
      ('$' :: '$' :: stem.toList.map bindingChar) ++ '_' :: Nat.toDigits 10 number := by
  simp [bindingName]

theorem eq_of_cons_underscore {last last' extra : List Char} (plain : '_' ∉ last)
    (eq : '_' :: last = extra ++ '_' :: last') : last = last' := by
  cases extra with
  | nil => exact (List.cons.inj eq).2
  | cons c extra =>
    -- the second underscore would stand in `last`
    refine absurd ?_ plain
    rw [(List.cons.inj eq).2]
    exact List.mem_append_right _ List.mem_cons_self

/-- What stands behind the last underscore is determined. -/
theorem eq_of_append_underscore {first first' last last' : List Char} (plain : '_' ∉ last)
    (plain' : '_' ∉ last') (eq : first ++ '_' :: last = first' ++ '_' :: last') :
    last = last' := by
  rcases List.append_eq_append_iff.1 eq with ⟨extra, -, eq⟩ | ⟨extra, -, eq⟩
  · exact eq_of_cons_underscore plain eq
  · exact (eq_of_cons_underscore plain' eq).symm

/-- The number of a binding is read off its name. -/
theorem bindingName_inj {stem stem' : String} {number number' : Nat}
    (eq : bindingName stem number = bindingName stem' number') : number = number' := by
  have texts := congrArg String.toList eq
  rw [toList_bindingName, toList_bindingName] at texts
  have digits := eq_of_append_underscore Nat.underscore_not_in_toDigits
    Nat.underscore_not_in_toDigits texts
  calc number
    _ = Nat.ofDigitChars 10 (Nat.toDigits 10 number) 0 := Nat.ofDigitChars_ten_toDigits.symm
    _ = Nat.ofDigitChars 10 (Nat.toDigits 10 number') 0 := by rw [digits]
    _ = number' := Nat.ofDigitChars_ten_toDigits

theorem bindingName_ne {name : String} (plain : '_' ∉ name.toList) (stem : String)
    (number : Nat) : bindingName stem number ≠ name := by
  rintro rfl
  refine plain ?_
  rw [toList_bindingName]
  exact List.mem_append_right _ List.mem_cons_self

/-! ## The bindings of a document -/

/-- Names of bindings with the numbers behind the first up to the last. -/
inductive Numbered : Nat → Nat → List String → Prop
  | nil {n : Nat} : Numbered n n []
  | cons {n last : Nat} {names : List String} (stem : String) (rest : Numbered (n + 1) last names) :
    Numbered n last (bindingName stem (n + 1) :: names)

namespace Numbered

variable {first middle last : Nat} {names names' : List String}

theorem append (h : Numbered first middle names) (h' : Numbered middle last names') :
    Numbered first last (names ++ names') := by
  induction h with
  | nil => exact h'
  | cons stem _ ih => exact .cons stem (ih h')

theorem le (h : Numbered first last names) : first ≤ last := by
  induction h with
  | nil => exact Nat.le_refl _
  | cons _ _ ih => exact Nat.le_of_succ_le ih

theorem exists_number (h : Numbered first last names) {name : String} (mem : name ∈ names) :
    ∃ stem number, name = bindingName stem number ∧ first < number := by
  induction h with
  | nil => cases mem
  | @cons n _ _ stem _ ih =>
    rcases List.mem_cons.1 mem with rfl | mem
    · exact ⟨stem, n + 1, rfl, Nat.lt_succ_self n⟩
    · obtain ⟨stem', number, eq, lt⟩ := ih mem
      exact ⟨stem', number, eq, Nat.lt_of_succ_lt lt⟩

theorem nodup (h : Numbered first last names) : names.Nodup := by
  induction h with
  | nil => exact List.nodup_nil
  | @cons n _ _ stem rest ih =>
    refine List.nodup_cons.2 ⟨fun mem => ?_, ih⟩
    obtain ⟨stem', number, eq, lt⟩ := rest.exists_number mem
    have same := bindingName_inj eq
    omega

end Numbered

section

variable (options : Options) (analysis : Analysis)

@[simp] theorem bindings_append (x y : Draft) : (x ++ y).bindings = x.bindings ++ y.bindings := rfl

theorem numbered_eventDraft (element node event : String) (a : Attribute) (count : Nat) :
    Numbered count (eventDraft analysis element node event a count).2
      (eventDraft analysis element node event a count).1.bindings := by
  unfold eventDraft
  split
  · exact .nil
  · exact .cons (element ++ "_" ++ event) .nil

theorem numbered_attributesDraft (element node : String) (attributes : List Attribute)
    (count : Nat) :
    Numbered count (attributesDraft options analysis element node attributes count).2
      (attributesDraft options analysis element node attributes count).1.bindings := by
  induction attributes generalizing count with
  | nil => exact .nil
  | cons a rest ih =>
    rw [attributesDraft]
    cases a.event? options.eventMarker with
    | none => exact ih count
    | some event => exact (numbered_eventDraft analysis element node event a count).append (ih _)

/-- The bindings of neighbouring fragments are numbered one after the other. -/
theorem numbered_fragmentsDraft (fs : List Fragment) (place : Place) (count : Nat) :
    Numbered count (fragmentsDraft options analysis place count fs).2
      (fragmentsDraft options analysis place count fs).1.bindings := by
  induction fs using Fragment.induction generalizing place count with
  | nil => exact .nil
  | cons f rest inner behind =>
    rw [fragmentsDraft]
    refine Numbered.append ?_ (behind _ _)
    cases f with
    | element name attributes children offset =>
      have own := numbered_attributesDraft options analysis name (bindingName name (count + 1))
        attributes (count + 1)
      exact .cons name (own.append (inner _ _))
    | text value => exact .cons "t" .nil
    | expression e => exact .cons "t" .nil

/-- **All bindings of a document are distinct.** -/
theorem nodup_bindings (html : List Fragment) :
    (documentDraft options analysis html).bindings.Nodup :=
  (numbered_fragmentsDraft options analysis html _ 0).nodup

/-- A name without an underscore is no binding. -/
theorem not_mem_bindings {name : String} (plain : '_' ∉ name.toList) (html : List Fragment) :
    name ∉ (documentDraft options analysis html).bindings := by
  intro mem
  obtain ⟨stem, number, eq, -⟩ :=
    (numbered_fragmentsDraft options analysis html _ 0).exists_number mem
  exact bindingName_ne plain stem number eq.symm

end

end ReactiveMarkup.Client
