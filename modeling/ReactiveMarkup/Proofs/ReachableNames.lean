import Mathlib.Data.List.Perm.Subperm
import ReactiveMarkup.Server.Elision

/-!
# Names that rendering reaches

The names that rendering can reach are found by repetition: start from what is read at once, and add
what the functions in the set read until nothing is new (`RepeatsTo`). The number of repetitions is
bounded by the number of functions. This is enough, because a repetition that adds something does so
on account of a function that the one before had not reached (`repeatsTo_reachWithin`). What comes
out is therefore exactly what can be reached (`mem_reachableNames_iff`).
-/

namespace ReactiveMarkup

namespace NameSet

theorem nodup (s : NameSet) : s.toList.Nodup := by
  refine s.ascending.imp ?_
  rintro name _ before rfl
  exact String.lt_irrefl name before

/-- A set that holds another set of the same size holds nothing else. -/
theorem mem_of_size_eq {s t : NameSet} (part : ∀ name ∈ s, name ∈ t) (size : t.size = s.size)
    {name : String} (mem : name ∈ t) : name ∈ s := by
  have subperm : s.toList.Subperm t.toList := s.nodup.subperm part
  exact (subperm.perm_of_length_le (Nat.le_of_eq size)).mem_iff.2 mem

/-- Two sets with the same members are equal. -/
theorem ext_mem {s t : NameSet} (same : ∀ name, name ∈ s ↔ name ∈ t) : s = t := by
  have perm : s.toList.Perm t.toList := (List.perm_ext_iff_of_nodup s.nodup t.nodup).2 same
  refine ext_toList (perm.eq_of_pairwise (fun a b _ _ before behind => ?_) s.ascending t.ascending)
  exact absurd (String.lt_trans before behind) (String.lt_irrefl a)

end NameSet

namespace Server

open Script (Statement)

/-- Whether a set holds what each function in it reads. -/
def Closed (functions : List (String × List String)) (names : NameSet) : Prop :=
  ∀ f ∈ functions, f.1 ∈ names → ∀ name ∈ f.2, name ∈ names

/-- What can be reached from a set through functions. -/
inductive Reaches (functions : List (String × List String)) (start : NameSet) : String → Prop
  | start {name : String} (mem : name ∈ start) : Reaches functions start name
  | through {f : String × List String} {name : String} (entry : f ∈ functions)
      (reached : Reaches functions start f.1) (read : name ∈ f.2) : Reaches functions start name

section

variable {functions : List (String × List String)} {needed : NameSet} {name : String}

/-! ## One repetition -/

theorem reachStep_cons (f : String × List String) (rest : List (String × List String))
    (needed : NameSet) :
    reachStep (f :: rest) needed =
      reachStep rest (if needed.contains f.1 then needed.insertAll f.2 else needed) := rfl

theorem mem_reachStep_of_mem (mem : name ∈ needed) : name ∈ reachStep functions needed := by
  induction functions generalizing needed with
  | nil => exact mem
  | cons f rest ih =>
    rw [reachStep_cons]
    refine ih ?_
    split
    · exact NameSet.mem_insertAll.2 (.inr mem)
    · exact mem

/-- What the functions in the set read is added. -/
theorem mem_reachStep_of_read {f : String × List String} (entry : f ∈ functions)
    (reached : f.1 ∈ needed) (read : name ∈ f.2) : name ∈ reachStep functions needed := by
  induction functions generalizing needed with
  | nil => cases entry
  | cons g rest ih =>
    rw [reachStep_cons]
    rcases List.mem_cons.1 entry with rfl | entry
    · rw [if_pos (NameSet.contains_iff.2 reached)]
      exact mem_reachStep_of_mem (NameSet.mem_insertAll.2 (.inl read))
    · refine ih entry ?_
      split
      · exact NameSet.mem_insertAll.2 (.inr reached)
      · exact reached

/-- What holds of the names in the set, and of what a function reads whenever it holds of the
function, holds of all names after a repetition. -/
theorem reachStep_invariant {P : String → Prop} (start : ∀ name ∈ needed, P name)
    (step : ∀ f ∈ functions, P f.1 → ∀ name ∈ f.2, P name) :
    ∀ name ∈ reachStep functions needed, P name := by
  induction functions generalizing needed with
  | nil => exact start
  | cons f rest ih =>
    rw [reachStep_cons]
    refine ih ?_ fun g entry => step g (List.mem_cons_of_mem f entry)
    split
    · rename_i reached
      intro name mem
      rcases NameSet.mem_insertAll.1 mem with read | mem
      · exact step f List.mem_cons_self (start f.1 (NameSet.contains_iff.1 reached)) name read
      · exact start name mem
    · exact start

/-! ## All repetitions -/

/-- The functions that a set does not hold. -/
def unreached (functions : List (String × List String)) (names : NameSet) :
    List (String × List String) :=
  functions.filter fun f => !names.contains f.1

/-- A set that holds more functions leaves fewer of them out. -/
theorem length_unreached_lt {seen : NameSet} (grown : ∀ name ∈ seen, name ∈ needed)
    {f : String × List String} (entry : f ∈ functions) (reached : f.1 ∈ needed)
    (new : f.1 ∉ seen) :
    (unreached functions needed).length < (unreached functions seen).length := by
  have smaller : unreached functions needed =
      (unreached functions seen).filter fun f => !needed.contains f.1 := by
    unfold unreached
    rw [List.filter_filter]
    refine List.filter_congr fun g _ => ?_
    by_cases held : g.1 ∈ seen
    · simp [NameSet.contains, held, grown g.1 held]
    · simp [NameSet.contains, held]
  rw [smaller, List.length_filter_lt_length_iff_exists]
  refine ⟨f, List.mem_filter.2 ⟨entry, ?_⟩, ?_⟩
  · simpa [NameSet.contains] using new
  · simpa [NameSet.contains] using reached

/-- The repetitions without a bound on their number: from a set, `reachStep` is repeated until a
repetition adds nothing. -/
inductive RepeatsTo (functions : List (String × List String)) : NameSet → NameSet → Prop
  | stop {needed : NameSet} (size : (reachStep functions needed).size = needed.size) :
    RepeatsTo functions needed (reachStep functions needed)
  | again {needed result : NameSet} (size : (reachStep functions needed).size ≠ needed.size)
      (behind : RepeatsTo functions (reachStep functions needed) result) :
    RepeatsTo functions needed result

/-- A repetition that leaves the number of names as it is leaves the set as it is. -/
theorem reachStep_of_size_eq (size : (reachStep functions needed).size = needed.size) :
    reachStep functions needed = needed :=
  NameSet.ext_mem fun _ =>
    ⟨NameSet.mem_of_size_eq (fun _ => mem_reachStep_of_mem) size, mem_reachStep_of_mem⟩

/-- A repetition that reaches no function for the first time adds nothing. -/
theorem reachStep_eq_self {seen : NameSet}
    (done : ∀ f ∈ functions, f.1 ∈ seen → ∀ name ∈ f.2, name ∈ needed)
    (none : ∀ f ∈ functions, f.1 ∈ needed → f.1 ∈ seen) : reachStep functions needed = needed :=
  NameSet.ext_mem fun name =>
    ⟨reachStep_invariant (fun _ mem => mem)
      (fun f entry reached => done f entry (none f entry reached)) name, mem_reachStep_of_mem⟩

namespace RepeatsTo

variable {start result : NameSet}

/-- When the repetitions end, what the functions in the set read is in the set. -/
theorem closed (repeats : RepeatsTo functions start result) : Closed functions result := by
  induction repeats with
  | @stop needed size =>
    intro f entry reached name read
    rw [reachStep_of_size_eq size] at reached
    exact mem_reachStep_of_read entry reached read
  | again _ _ ih => exact ih

theorem mem_of_mem (repeats : RepeatsTo functions start result) (mem : name ∈ start) :
    name ∈ result := by
  induction repeats with
  | stop _ => exact mem_reachStep_of_mem mem
  | again _ _ ih => exact ih (mem_reachStep_of_mem mem)

theorem reaches (repeats : RepeatsTo functions start result) (mem : name ∈ result) :
    Reaches functions start name := by
  suffices invariant : ∀ {P : String → Prop}, (∀ name ∈ start, P name) →
      (∀ f ∈ functions, P f.1 → ∀ name ∈ f.2, P name) → P name from
    invariant (fun _ => .start) fun _ entry reached _ => .through entry reached
  intro P holds step
  induction repeats with
  | stop _ => exact reachStep_invariant holds step name mem
  | again _ _ ih => exact ih mem (reachStep_invariant holds step)

/-- Where the repetitions end, they have found what can be reached. -/
theorem mem_iff (repeats : RepeatsTo functions start result) :
    name ∈ result ↔ Reaches functions start name := by
  refine ⟨repeats.reaches, fun reaches => ?_⟩
  induction reaches with
  | start mem => exact repeats.mem_of_mem mem
  | through entry _ read ih => exact repeats.closed _ entry ih _ read

end RepeatsTo

/-- **The bound on the repetitions is no restriction.** What the functions of an earlier set `seen`
read is there already; each repetition has to reach a function that `seen` does not hold, or it
adds nothing. -/
theorem repeatsTo_reachWithin {fuel : Nat} {seen : NameSet}
    (grown : ∀ name ∈ seen, name ∈ needed)
    (done : ∀ f ∈ functions, f.1 ∈ seen → ∀ name ∈ f.2, name ∈ needed)
    (enough : (unreached functions seen).length ≤ fuel) :
    RepeatsTo functions needed (reachWithin functions fuel needed) := by
  induction fuel generalizing seen needed with
  -- no function is left to reach, so that one more step would add nothing
  | zero =>
    have all : ∀ f ∈ functions, f.1 ∈ seen := by
      intro f entry
      have absent : f ∉ unreached functions seen := by
        rw [List.eq_nil_of_length_eq_zero (Nat.le_zero.1 enough)]
        exact List.not_mem_nil
      simpa [unreached, entry, NameSet.contains] using absent
    have same := reachStep_eq_self done fun f entry _ => all f entry
    rw [reachWithin]
    nth_rewrite 2 [← same]
    exact .stop (by rw [same])
  | succ fuel ih =>
    rw [reachWithin]
    split
    · rename_i size
      exact .stop size
    · rename_i size
      refine .again size ?_
      obtain ⟨f, entry, reached, new⟩ : ∃ f ∈ functions, f.1 ∈ needed ∧ f.1 ∉ seen := by
        refine Classical.byContradiction fun none => size ?_
        rw [reachStep_eq_self done fun f entry reached =>
          Classical.byContradiction fun new => none ⟨f, entry, reached, new⟩]
      -- `needed` is the earlier set of the next repetition, and it holds a function more
      have fewer := length_unreached_lt grown entry reached new
      exact ih (fun _ => mem_reachStep_of_mem)
        (fun f entry reached _ => mem_reachStep_of_read entry reached) (by omega)

/-- The repetitions from a set come to an end. -/
theorem repeatsTo_start (functions : List (String × List String)) (start : NameSet) :
    RepeatsTo functions start (reachWithin functions (functions.length + 1) start) := by
  have nothing : ∀ name ∈ (∅ : NameSet), name ∈ start := by simp
  exact repeatsTo_reachWithin nothing (by simp) (Nat.le_succ_of_le (List.length_filter_le _ _))

end

/-! ## What the top level reads -/

namespace TopLevel

@[simp] theorem eager_append (x y : TopLevel) : (x ++ y).eager = x.eager ++ y.eager := rfl

@[simp] theorem functions_append (x y : TopLevel) :
    (x ++ y).functions = x.functions ++ y.functions := rfl

theorem foldl_append {α : Type} (part : α → TopLevel) (items : List α) (t : TopLevel) :
    items.foldl (fun t item => t ++ part item) t =
      ⟨t.eager ++ items.flatMap fun item => (part item).eager,
        t.functions ++ items.flatMap fun item => (part item).functions⟩ := by
  induction items generalizing t with
  | nil => simp
  | cons item rest ih =>
    rw [List.foldl_cons, ih]
    simp

theorem mem_eager_ofScript {script : List Statement} {name : String} :
    name ∈ (ofScript script).eager ↔ ∃ s ∈ script, name ∈ (ofStatement s).eager := by
  rw [ofScript, foldl_append]
  simp [empty]

theorem mem_functions_ofScript {script : List Statement} {f : String × List String} :
    f ∈ (ofScript script).functions ↔ ∃ s ∈ script, f ∈ (ofStatement s).functions := by
  rw [ofScript, foldl_append]
  simp [empty]

theorem ofStatement_declaration (kind : Script.DeclarationKind) (items : List Script.Declarator) :
    ofStatement (.declaration kind items) =
      ⟨items.flatMap fun d => (ofDeclarator d).eager,
        items.flatMap fun d => (ofDeclarator d).functions⟩ := by
  rw [ofStatement, foldl_append]
  simp [empty]

end TopLevel

/-- What is read at once: by the top level, by the markup and by the reactive declarations. -/
def readAtOnce (script : List Statement) (analysis : Analysis) : NameSet :=
  ((NameSet.ofList (TopLevel.ofScript script).eager).insertAll
    analysis.usedInTemplate.toList).insertAll
    (analysis.declarations.flatMap fun d => d.body.references)

/-- The names that rendering can reach are where the repetitions end. -/
theorem repeatsTo_reachableNames (script : List Statement) (analysis : Analysis) :
    RepeatsTo (TopLevel.ofScript script).functions (readAtOnce script analysis)
      (reachableNames script analysis) :=
  repeatsTo_start _ _

/-- **The names that rendering can reach** are those that are read at once and those that can be
reached from them through functions. -/
theorem mem_reachableNames_iff {script : List Statement} {analysis : Analysis} {name : String} :
    name ∈ reachableNames script analysis ↔
      Reaches (TopLevel.ofScript script).functions (readAtOnce script analysis) name :=
  (repeatsTo_reachableNames script analysis).mem_iff

end Server

end ReactiveMarkup
