/-!
# Sets of names

A set of names is kept as its ascending list, so that a set has one representation and its members
come in one order. Names are ordered by code point, which is also the order of their UTF-8 bytes.
-/

namespace ReactiveMarkup

/-- A finite set of names, held in ascending order. -/
structure NameSet where
  toList : List String
  ascending : toList.Pairwise (· < ·) := by simp

namespace NameSet

@[ext] theorem ext_toList {s t : NameSet} (h : s.toList = t.toList) : s = t := by
  cases s; cases t; cases h; rfl

/-- The set without names. -/
def empty : NameSet := ⟨[], by simp⟩

instance : EmptyCollection NameSet := ⟨empty⟩

instance : Inhabited NameSet := ⟨empty⟩

instance : Membership String NameSet := ⟨fun s name => name ∈ s.toList⟩

theorem mem_def {s : NameSet} {name : String} : name ∈ s ↔ name ∈ s.toList := Iff.rfl

instance (s : NameSet) (name : String) : Decidable (name ∈ s) :=
  inferInstanceAs (Decidable (name ∈ s.toList))

@[simp] theorem not_mem_empty (name : String) : name ∉ (∅ : NameSet) := by
  show name ∉ ([] : List String)
  simp

/-- Puts a name in its place in an ascending list. -/
def insertAscending (name : String) : List String → List String
  | [] => [name]
  | other :: rest =>
    if name < other then name :: other :: rest
    else if name = other then other :: rest
    else other :: insertAscending name rest

theorem mem_insertAscending {name other : String} {names : List String} :
    other ∈ insertAscending name names ↔ other = name ∨ other ∈ names := by
  induction names with
  | nil => simp [insertAscending]
  | cons first rest ih =>
    simp only [insertAscending]
    split
    · simp
    · split
      · rename_i h
        simp [h]
      · simp [ih]
        constructor <;> (intro h; rcases h with h | h | h <;> simp [h])

theorem pairwise_insertAscending {name : String} {names : List String}
    (h : names.Pairwise (· < ·)) : (insertAscending name names).Pairwise (· < ·) := by
  induction names with
  | nil => simp [insertAscending]
  | cons first rest ih =>
    obtain ⟨below, tail⟩ := List.pairwise_cons.1 h
    simp only [insertAscending]
    split
    · rename_i before
      refine List.pairwise_cons.2 ⟨?_, h⟩
      intro other mem
      rcases List.mem_cons.1 mem with rfl | mem
      · exact before
      · exact String.lt_trans before (below other mem)
    · split
      · exact h
      · rename_i notBefore different
        have after : first < name := by
          rcases Std.lt_trichotomy name first with lt | eq | gt
          · exact absurd lt notBefore
          · exact absurd eq different
          · exact gt
        refine List.pairwise_cons.2 ⟨?_, ih tail⟩
        intro other mem
        rcases mem_insertAscending.1 mem with rfl | mem
        · exact after
        · exact below other mem

/-- Adds a name. -/
def insert (s : NameSet) (name : String) : NameSet :=
  ⟨insertAscending name s.toList, pairwise_insertAscending s.ascending⟩

@[simp] theorem mem_insert {s : NameSet} {name other : String} :
    other ∈ s.insert name ↔ other = name ∨ other ∈ s := mem_insertAscending

/-- Adds every name of a list. -/
def insertAll (s : NameSet) (names : List String) : NameSet := names.foldl insert s

@[simp] theorem mem_insertAll {s : NameSet} {names : List String} {other : String} :
    other ∈ s.insertAll names ↔ other ∈ names ∨ other ∈ s := by
  induction names generalizing s with
  | nil => simp [insertAll]
  | cons name rest ih =>
    show other ∈ (s.insert name).insertAll rest ↔ _
    rw [ih, mem_insert, List.mem_cons]
    constructor
    · rintro (h | rfl | h)
      · exact Or.inl (Or.inr h)
      · exact Or.inl (Or.inl rfl)
      · exact Or.inr h
    · rintro ((rfl | h) | h)
      · exact Or.inr (Or.inl rfl)
      · exact Or.inl h
      · exact Or.inr (Or.inr h)

/-- The set of the names of a list. -/
def ofList (names : List String) : NameSet := (∅ : NameSet).insertAll names

@[simp] theorem mem_ofList {names : List String} {other : String} :
    other ∈ ofList names ↔ other ∈ names := by
  simp [ofList]

/-- Whether a name belongs to the set. -/
def contains (s : NameSet) (name : String) : Bool := decide (name ∈ s)

@[simp] theorem contains_iff {s : NameSet} {name : String} :
    s.contains name = true ↔ name ∈ s := by
  simp [contains]

/-- Number of names. -/
def size (s : NameSet) : Nat := s.toList.length

end NameSet

end ReactiveMarkup
