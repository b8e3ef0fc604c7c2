import ReactiveMarkup.Markup.Fragment

/-!
# Positions in markup

A fragment is found by the numbers of the fragments on the way to it, from the outside in, each
counted among its siblings. `Fragment.allPositions` lists the positions of all fragments in source
order, `Fragment.siblings?` leads to the fragments that have a common parent.
-/

namespace ReactiveMarkup.Fragment

/-- The fragments inside an element. -/
def children : Fragment → List Fragment
  | .element _ _ children _ => children
  | .text _ => []
  | .expression _ => []

/-- What holds of no fragments, and of a fragment and those behind it whenever it holds of its
children and of those behind it, holds of all markup. -/
theorem induction {motive : List Fragment → Prop} (nil : motive [])
    (cons : ∀ f rest, motive f.children → motive rest → motive (f :: rest)) :
    ∀ fs : List Fragment, motive fs
  | [] => nil
  | .element name attributes children offset :: rest =>
    cons (.element name attributes children offset) rest (induction nil cons children)
      (induction nil cons rest)
  | .text value :: rest => cons (.text value) rest nil (induction nil cons rest)
  | .expression e :: rest => cons (.expression e) rest nil (induction nil cons rest)

/-- The fragments inside the element at a position; at the top level, the markup itself. -/
def siblings? : List Fragment → List Nat → Option (List Fragment)
  | fs, [] => some fs
  | fs, k :: rest => fs[k]?.bind fun f => siblings? f.children rest

mutual

/-- The positions of a fragment with the given number and of all fragments inside it. -/
def positions (k : Nat) : Fragment → List (List Nat)
  | .element _ _ children _ => [k] :: (allPositions 0 children).map (k :: ·)
  | .text _ => [[k]]
  | .expression _ => [[k]]
termination_by structural f => f

/-- The positions of neighbouring fragments, counted from `k` on, and of all fragments inside
them. -/
def allPositions (k : Nat) : List Fragment → List (List Nat)
  | [] => []
  | f :: rest => f.positions k ++ allPositions (k + 1) rest
termination_by structural fs => fs

end

theorem positions_eq (k : Nat) (f : Fragment) :
    f.positions k = [k] :: (allPositions 0 f.children).map (k :: ·) := by
  cases f <;> simp [positions, children, allPositions]

theorem allPositions_cons (k : Nat) (f : Fragment) (rest : List Fragment) :
    allPositions k (f :: rest) =
      [k] :: ((allPositions 0 f.children).map (k :: ·) ++ allPositions (k + 1) rest) := by
  rw [allPositions, positions_eq, List.cons_append]

/-- Positions among neighbours start with the number of one of them. -/
theorem exists_head_of_mem {k : Nat} {fs : List Fragment} {p : List Nat}
    (mem : p ∈ allPositions k fs) : ∃ j rest, p = j :: rest ∧ k ≤ j := by
  induction fs generalizing k with
  | nil => cases mem
  | cons f rest ih =>
    rw [allPositions_cons, List.mem_cons, List.mem_append, List.mem_map] at mem
    rcases mem with rfl | ⟨q, _, rfl⟩ | mem
    · exact ⟨k, [], rfl, Nat.le_refl k⟩
    · exact ⟨k, q, rfl, Nat.le_refl k⟩
    · obtain ⟨j, q, eq, le⟩ := ih mem
      exact ⟨j, q, eq, Nat.le_of_succ_le le⟩

/-- Every position is listed once. -/
theorem nodup_allPositions (k : Nat) (fs : List Fragment) : (allPositions k fs).Nodup := by
  induction fs using Fragment.induction generalizing k with
  | nil => exact List.nodup_nil
  | cons f rest inner behind =>
    rw [allPositions_cons, List.nodup_cons, List.nodup_append]
    refine ⟨?_, ?_, behind (k + 1), ?_⟩
    -- positions inside `f` are longer, and positions behind it start with a larger number
    · rw [List.mem_append, List.mem_map, not_or]
      constructor
      · rintro ⟨q, mem, eq⟩
        obtain ⟨j, q', rfl, -⟩ := exists_head_of_mem mem
        simp at eq
      · intro mem
        obtain ⟨j, q, eq, le⟩ := exists_head_of_mem mem
        obtain ⟨rfl, -⟩ := List.cons.inj eq
        omega
    · exact List.Pairwise.map _ (fun p q ne eq => ne (List.cons.inj eq).2) (inner 0)
    · rintro p memFirst q memRest rfl
      obtain ⟨p', _, rfl⟩ := List.mem_map.1 memFirst
      obtain ⟨j, q, eq, le⟩ := exists_head_of_mem memRest
      obtain ⟨rfl, -⟩ := List.cons.inj eq
      omega

theorem mem_allPositions_cons {fs : List Fragment} {j k : Nat} {f : Fragment} {q : List Nat}
    (child : fs[j]? = some f) (inner : q = [] ∨ q ∈ allPositions 0 f.children) :
    (k + j) :: q ∈ allPositions k fs := by
  induction fs generalizing j k with
  | nil => simp at child
  | cons first rest ih =>
    rw [allPositions_cons, List.mem_cons, List.mem_append, List.mem_map]
    cases j with
    | zero =>
      obtain rfl : first = f := by simpa using child
      rcases inner with rfl | inner
      · exact .inl rfl
      · exact .inr (.inl ⟨q, inner, rfl⟩)
    | succ j =>
      have behind := ih (k := k + 1) (by simpa using child)
      rw [Nat.add_right_comm] at behind
      exact .inr (.inr behind)

/-- Every fragment is listed. -/
theorem mem_allPositions {fs level : List Fragment} {p : List Nat} {k : Nat} {f : Fragment}
    (found : siblings? fs p = some level) (child : level[k]? = some f) :
    p ++ [k] ∈ allPositions 0 fs := by
  induction p generalizing fs with
  | nil =>
    obtain rfl : fs = level := Option.some.inj found
    simpa using mem_allPositions_cons (k := 0) (q := []) child (.inl rfl)
  | cons j rest ih =>
    obtain ⟨g, outer, found⟩ := Option.bind_eq_some_iff.1 found
    simpa using mem_allPositions_cons (k := 0) outer (.inr (ih found))

end ReactiveMarkup.Fragment
