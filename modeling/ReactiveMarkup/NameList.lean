/-!
# Names in order of first appearance

Collectors report each name once, at the place of its first appearance. `addName` is the single
step: it appends a name that the list does not hold yet.
-/

namespace ReactiveMarkup

/-- Appends a name unless the list holds it. -/
def addName (names : List String) (name : String) : List String :=
  if name ∈ names then names else names ++ [name]

/-- Appends, in order, those names that the list does not hold yet. -/
def addNames (names more : List String) : List String := more.foldl addName names

/-- The names of a list without the repetitions. -/
def distinctNames (names : List String) : List String := addNames [] names

theorem mem_addName {names : List String} {name other : String} :
    other ∈ addName names name ↔ other ∈ names ∨ other = name := by
  unfold addName
  split
  · rename_i h
    constructor
    · exact Or.inl
    · rintro (h' | rfl)
      · exact h'
      · exact h
  · simp

theorem nodup_addName {names : List String} {name : String} (h : names.Nodup) :
    (addName names name).Nodup := by
  unfold addName
  split
  · exact h
  · rename_i absent
    refine List.nodup_append.2 ⟨h, by simp, ?_⟩
    intro a ha b hb hab
    simp only [List.mem_singleton] at hb
    exact absent (hb ▸ hab ▸ ha)

theorem mem_addNames {names more : List String} {other : String} :
    other ∈ addNames names more ↔ other ∈ names ∨ other ∈ more := by
  induction more generalizing names with
  | nil => simp [addNames]
  | cons name rest ih =>
    show other ∈ addNames (addName names name) rest ↔ _
    rw [ih, mem_addName, List.mem_cons, or_assoc]

theorem nodup_addNames {names more : List String} (h : names.Nodup) :
    (addNames names more).Nodup := by
  induction more generalizing names with
  | nil => exact h
  | cons name rest ih => exact ih (nodup_addName h)

end ReactiveMarkup
