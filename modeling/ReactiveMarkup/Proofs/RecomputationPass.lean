import Mathlib.Order.Bounds.Defs
import ReactiveMarkup.Proofs.ScheduleOrder
import ReactiveMarkup.Reactivity.Recomputation

/-!
# One pass over the reactive declarations

The statements that recompute reactive declarations are run here as a program: tests are evaluated
in the current batch of changed names, and what runs is recorded with the statement it belongs to.
A pass visits the declarations in their order and never goes back, while the batch grows. Since
producers come first, one pass is enough: the declarations that run are the least set that holds
every declaration which depends on the first batch or on another member (`recomputation_complete`).
-/

namespace ReactiveMarkup.Recomputation

open Emission (Statement Expression)

/-! ## Running the emitted statements -/

/-- What a name stands for in a pass. -/
inductive Value
  | truth (value : Bool)
  | text (value : String)
  | texts (values : List String)
deriving DecidableEq, Repr

/-- The truth that a value is. -/
def Value.truth? : Value → Option Bool
  | .truth value => some value
  | _ => none

/-- Whether a test holds of one of some texts. Those behind the first one are not tested. -/
def anyHolds (test : String → Option Bool) : List String → Option Bool
  | [] => some false
  | value :: rest =>
    match test value with
    | some true => some true
    | some false => anyHolds test rest
    | none => none

mutual

/-- The value of an expression, given what the names stand for. -/
def evaluate (names : String → Option Value) : Expression → Option Value
  | .identifier name => names name
  | .text value => some (.text value)
  | .array items => (evaluateTexts names items).map .texts
  | .binary left "||" right =>
    match evaluate names left with
    | some (.truth true) => some (.truth true)
    | some (.truth false) => evaluate names right
    | _ => none
  | .call (.member object "some") [.arrow [param] body] =>
    match evaluate names object with
    | some (.texts values) =>
      (anyHolds (fun value =>
        (evaluate (fun name => if name = param then some (.text value) else names name) body).bind
          Value.truth?) values).map .truth
    | _ => none
  | .call (.member object "includes") [argument] =>
    match evaluate names object, evaluate names argument with
    | some (.texts values), some (.text value) => some (.truth (decide (value ∈ values)))
    | _, _ => none
  | _ => none
termination_by structural e => e

/-- The values of expressions that are texts. -/
def evaluateTexts (names : String → Option Value) : List Expression → Option (List String)
  | [] => some []
  | e :: rest =>
    match evaluate names e, evaluateTexts names rest with
    | some (.text value), some values => some (value :: values)
    | _, _ => none
termination_by structural es => es

end

/-- The state of a pass. -/
structure Pass where
  /-- The names that have changed so far. -/
  batch : List String
  /-- The script code that has run, with the number of the statement that it belongs to. -/
  ran : List (Nat × String)
deriving DecidableEq, Repr

/-- The numbers of the statements whose code has run, in order. -/
def Pass.positions (p : Pass) : List Nat := p.ran.map Prod.fst

/-- The names of the function that makes the pass. -/
def Pass.names (p : Pass) (initial : Bool) (name : String) : Option Value :=
  if name = Vocabulary.changed then some (.texts p.batch)
  else if name = Vocabulary.initial then some (.truth initial)
  else none

mutual

/-- Runs a statement on behalf of the statement of the given number. Script code leaves the batch
alone. -/
def execute (initial : Bool) (position : Nat) : Statement → Pass → Option Pass
  | .verbatim code, p => some { p with ran := p.ran ++ [(position, code)] }
  | .expression (.call (.member (.identifier name) "push") [argument]), p =>
    match evaluate (p.names initial) argument with
    | some (.text value) =>
      if name = Vocabulary.changed then some { p with batch := p.batch ++ [value] } else none
    | _ => none
  | .guarded test body, p =>
    match evaluate (p.names initial) test with
    | some (.truth true) => executeAll initial position body p
    | some (.truth false) => some p
    | _ => none
  | _, _ => none
termination_by structural s => s

/-- Runs the statements of a body, one after the other. -/
def executeAll (initial : Bool) (position : Nat) : List Statement → Pass → Option Pass
  | [], p => some p
  | s :: rest, p => (execute initial position s p).bind (executeAll initial position rest)
termination_by structural ss => ss

end

/-- Runs statements that are numbered from `position` on. -/
def run (initial : Bool) : Nat → List Statement → Pass → Option Pass
  | _, [], p => some p
  | position, s :: rest, p => (execute initial position s p).bind (run initial (position + 1) rest)

/-! ## What a reactive declaration does in a pass -/

/-- Whether a declaration depends on one of some names. -/
def dependsOn (d : ReactiveDeclaration) (batch : List String) : Bool :=
  d.dependencies.any fun name => decide (name ∈ batch)

theorem dependsOn_iff {d : ReactiveDeclaration} {batch : List String} :
    dependsOn d batch = true ↔ ∃ name ∈ d.dependencies, name ∈ batch := by
  simp [dependsOn]

theorem anyHolds_some (test : String → Bool) (values : List String) :
    anyHolds (fun value => some (test value)) values = some (values.any test) := by
  induction values with
  | nil => rfl
  | cons value rest ih => cases h : test value <;> simp [anyHolds, h, ih]

theorem evaluateTexts_texts (names : String → Option Value) (values : List String) :
    evaluateTexts names (values.map .text) = some values := by
  induction values with
  | nil => rfl
  | cons value rest ih => simp [evaluateTexts, evaluate, ih]

theorem names_changed (p : Pass) (initial : Bool) :
    p.names initial Vocabulary.changed = some (.texts p.batch) := rfl

theorem names_initial (p : Pass) (initial : Bool) :
    p.names initial Vocabulary.initial = some (.truth initial) := rfl

/-- The test for changed names holds if one of the names is in the batch. -/
theorem evaluate_changedTest_of_batch {environment : String → Option Value} {batch : List String}
    (told : environment Vocabulary.changed = some (.texts batch)) (names : List String) :
    evaluate environment (changedTest names Vocabulary.changed) =
      some (.truth (names.any fun name => decide (name ∈ batch))) := by
  unfold changedTest
  split
  · simp [Expression.callMethod, evaluate, told]
  · rename_i names _
    -- the parameter of the arrow does not hide the batch
    have ne : Vocabulary.changed ≠ Vocabulary.name := by decide
    simp [Expression.callMethod, Expression.texts, evaluate, evaluateTexts_texts, told, ne,
      Value.truth?, anyHolds_some]

theorem evaluate_changedTest (p : Pass) (initial : Bool) (names : List String) :
    evaluate (p.names initial) (changedTest names Vocabulary.changed) =
      some (.truth (names.any fun name => decide (name ∈ p.batch))) :=
  evaluate_changedTest_of_batch (names_changed p initial) names

theorem evaluate_test (p : Pass) (initial : Bool) (d : ReactiveDeclaration) :
    evaluate (p.names initial) (d.test Vocabulary.changed) =
      some (.truth (initial || dependsOn d p.batch)) := by
  unfold ReactiveDeclaration.test
  split
  · rename_i none
    simp [evaluate, names_initial, dependsOn, List.isEmpty_iff.1 none]
  · cases initial <;> simp [evaluate, names_initial, evaluate_changedTest, dependsOn]

/-- The pass after a declaration has run. -/
def Pass.record (p : Pass) (position : Nat) (d : ReactiveDeclaration) : Pass :=
  ⟨p.batch ++ d.assignees, p.ran ++ [(position, d.body.print)]⟩

/-- The pass after a declaration has been visited. -/
def Pass.step (initial : Bool) (position : Nat) (d : ReactiveDeclaration) (p : Pass) : Pass :=
  if initial || dependsOn d p.batch then p.record position d else p

theorem execute_push (initial : Bool) (position : Nat) (name : String) (p : Pass) :
    execute initial position
        (.expression (.callMethod (.identifier Vocabulary.changed) "push" [.text name])) p =
      some { p with batch := p.batch ++ [name] } := by
  simp [Expression.callMethod, execute, evaluate]

theorem executeAll_push (initial : Bool) (position : Nat) (names : List String) (p : Pass) :
    executeAll initial position (names.map fun name =>
        .expression (.callMethod (.identifier Vocabulary.changed) "push" [.text name])) p =
      some { p with batch := p.batch ++ names } := by
  induction names generalizing p with
  | nil => simp [executeAll]
  | cons name rest ih =>
    rw [List.map_cons, executeAll, execute_push, Option.bind_some, ih, List.append_assoc]
    rfl

theorem execute_guarded (initial : Bool) (position : Nat) (d : ReactiveDeclaration) (p : Pass) :
    execute initial position (d.guarded Vocabulary.changed) p =
      some (p.step initial position d) := by
  rw [ReactiveDeclaration.guarded, execute, evaluate_test, Pass.step]
  cases initial || dependsOn d p.batch with
  | false => rfl
  | true =>
    simp only [executeAll, ReactiveDeclaration.code, execute, Option.bind_some, executeAll_push,
      ite_true, Pass.record]

/-- A pass over declarations that are numbered from `position` on. -/
def Pass.through (initial : Bool) : Nat → List ReactiveDeclaration → Pass → Pass
  | _, [], p => p
  | position, d :: rest, p => through initial (position + 1) rest (p.step initial position d)

theorem run_guarded (initial : Bool) (position : Nat) (declarations : List ReactiveDeclaration)
    (p : Pass) :
    run initial position (declarations.map (·.guarded Vocabulary.changed)) p =
      some (p.through initial position declarations) := by
  induction declarations generalizing position p with
  | nil => rfl
  | cons d rest ih => rw [List.map_cons, run, execute_guarded, Option.bind_some, ih, Pass.through]

/-! ## What a pass has done -/

section

variable (declarations : List ReactiveDeclaration)

/-- Whether a declaration at one of some positions assigns a name. -/
def Assigned (positions : Set Nat) (name : String) : Prop :=
  ∃ k ∈ positions, ∃ d, declarations[k]? = some d ∧ name ∈ d.assignees

/-- Whether some positions hold every declaration that depends on one of some names or on what a
declaration among them assigns. -/
def Closed (batch : List String) (positions : Set Nat) : Prop :=
  ∀ k d, declarations[k]? = some d →
    (∃ name ∈ d.dependencies, name ∈ batch ∨ Assigned declarations positions name) →
    k ∈ positions

/-- What a pass that started with some names has recorded. -/
structure Traced (start : List String) (p : Pass) : Prop where
  /-- What has run are bodies of declarations. -/
  bodies : ∀ k code, (k, code) ∈ p.ran → ∃ d, declarations[k]? = some d ∧ code = d.body.print
  /-- They ran in order, each of them once. -/
  ascending : p.positions.Pairwise (· < ·)
  /-- The batch holds the first names and what has been assigned. -/
  batch : ∀ name, name ∈ p.batch ↔
    name ∈ start ∨ Assigned declarations {k | k ∈ p.positions} name

/-- What holds of a pass that has visited the declarations before position `n`. -/
structure Stage (start : List String) (n : Nat) (p : Pass) : Prop
    extends Traced declarations start p where
  visited : ∀ k ∈ p.positions, k < n
  /-- Nothing ran that need not. -/
  needed : ∀ positions, Closed declarations start positions → ∀ k ∈ p.positions, k ∈ positions
  /-- What depends on the first names or on something assigned before it has run. -/
  complete : ∀ k < n, ∀ d, declarations[k]? = some d →
    (∃ name ∈ d.dependencies,
      name ∈ start ∨ Assigned declarations {j | j ∈ p.positions ∧ j < k} name) →
    k ∈ p.positions

end

variable {declarations : List ReactiveDeclaration} {start : List String} {n : Nat} {p : Pass}
  {d : ReactiveDeclaration}

theorem Assigned.mono {positions positions' : Set Nat} {name : String}
    (h : Assigned declarations positions name) (subset : ∀ k ∈ positions, k ∈ positions') :
    Assigned declarations positions' name := by
  obtain ⟨k, mem, d, found, assigned⟩ := h
  exact ⟨k, subset k mem, d, found, assigned⟩

theorem positions_record (p : Pass) (n : Nat) (d : ReactiveDeclaration) :
    (p.record n d).positions = p.positions ++ [n] := by
  simp [Pass.record, Pass.positions]

theorem Traced.record (traced : Traced declarations start p)
    (visited : ∀ k ∈ p.positions, k < n) (found : declarations[n]? = some d) :
    Traced declarations start (p.record n d) where
  bodies k code mem := by
    rcases List.mem_append.1 mem with mem | mem
    · exact traced.bodies k code mem
    · obtain ⟨rfl, rfl⟩ := Prod.mk.inj (List.mem_singleton.1 mem)
      exact ⟨d, found, rfl⟩
  ascending := by
    rw [positions_record]
    refine List.pairwise_append.2 ⟨traced.ascending, List.pairwise_singleton _ _, ?_⟩
    intro k mem m eq
    rw [List.mem_singleton.1 eq]
    exact visited k mem
  batch name := by
    rw [positions_record]
    constructor
    · intro mem
      rcases List.mem_append.1 mem with mem | mem
      · rcases (traced.batch name).1 mem with mem | assigned
        · exact .inl mem
        · exact .inr (assigned.mono fun k mem => List.mem_append_left _ mem)
      · exact .inr ⟨n, List.mem_append_right _ List.mem_cons_self, d, found, mem⟩
    · rintro (mem | ⟨k, mem, d', found', assigned⟩)
      · exact List.mem_append_left _ ((traced.batch name).2 (.inl mem))
      · rcases List.mem_append.1 mem with mem | mem
        · exact List.mem_append_left _ ((traced.batch name).2 (.inr ⟨k, mem, d', found', assigned⟩))
        · obtain rfl := List.mem_singleton.1 mem
          obtain rfl : d = d' := Option.some.inj (found.symm.trans found')
          exact List.mem_append_right _ assigned

/-- A declaration that depends on the batch runs. -/
theorem Stage.record (stage : Stage declarations start n p) (found : declarations[n]? = some d)
    (depends : dependsOn d p.batch = true) : Stage declarations start (n + 1) (p.record n d) where
  toTraced := stage.toTraced.record stage.visited found
  visited k mem := by
    rw [positions_record] at mem
    rcases List.mem_append.1 mem with mem | mem
    · exact Nat.lt_succ_of_lt (stage.visited k mem)
    · exact (List.mem_singleton.1 mem) ▸ Nat.lt_succ_self n
  needed positions closed k mem := by
    rw [positions_record] at mem
    rcases List.mem_append.1 mem with mem | mem
    · exact stage.needed positions closed k mem
    · obtain rfl := List.mem_singleton.1 mem
      obtain ⟨name, dependency, mem⟩ := dependsOn_iff.1 depends
      refine closed k d found ⟨name, dependency, ?_⟩
      exact ((stage.batch name).1 mem).imp_right fun assigned =>
        assigned.mono (stage.needed positions closed)
  complete k lt d' found' := by
    rintro ⟨name, dependency, reason⟩
    rw [positions_record] at reason ⊢
    rcases Nat.lt_succ_iff_lt_or_eq.1 lt with lt | rfl
    · refine List.mem_append_left _ (stage.complete k lt d' found' ⟨name, dependency, ?_⟩)
      refine reason.imp_right fun assigned => assigned.mono ?_
      -- what ran last is not in front of `k`
      rintro j ⟨mem, before⟩
      rcases List.mem_append.1 mem with mem | mem
      · exact ⟨mem, before⟩
      · exact absurd (List.mem_singleton.1 mem) (by omega)
    · exact List.mem_append_right _ List.mem_cons_self

/-- A declaration that does not depend on the batch is passed over. -/
theorem Stage.skip (stage : Stage declarations start n p) (found : declarations[n]? = some d)
    (independent : ¬ dependsOn d p.batch = true) : Stage declarations start (n + 1) p where
  toTraced := stage.toTraced
  visited k mem := Nat.lt_succ_of_lt (stage.visited k mem)
  needed := stage.needed
  complete k lt d' found' reason := by
    rcases Nat.lt_succ_iff_lt_or_eq.1 lt with lt | rfl
    · exact stage.complete k lt d' found' reason
    · obtain rfl : d = d' := Option.some.inj (found.symm.trans found')
      obtain ⟨name, dependency, reason⟩ := reason
      refine absurd (dependsOn_iff.2 ⟨name, dependency, (stage.batch name).2 ?_⟩) independent
      exact reason.imp_right fun assigned => assigned.mono fun j mem => mem.1

/-- One step keeps what holds of a pass. -/
theorem Stage.step (stage : Stage declarations start n p) (found : declarations[n]? = some d) :
    Stage declarations start (n + 1) (p.step false n d) := by
  rw [Pass.step, Bool.false_or]
  split
  · rename_i depends
    exact stage.record found depends
  · rename_i independent
    exact stage.skip found independent

/-- So does a whole pass. -/
theorem Stage.through (before rest : List ReactiveDeclaration)
    (stage : Stage (before ++ rest) start before.length p) :
    Stage (before ++ rest) start (before ++ rest).length
      (p.through false before.length rest) := by
  induction rest generalizing before p with
  | nil => simpa [Pass.through] using stage
  | cons d rest ih =>
    have next := stage.step (d := d) (by simp)
    have whole : before ++ d :: rest = (before ++ [d]) ++ rest := by simp
    have visited : before.length + 1 = (before ++ [d]).length := by simp
    rw [Pass.through]
    rw [whole, visited] at next ⊢
    exact ih (before ++ [d]) next

theorem stage_start (declarations : List ReactiveDeclaration) (start : List String) :
    Stage declarations start 0 ⟨start, []⟩ where
  bodies := by simp
  ascending := List.Pairwise.nil
  batch name := by simp [Pass.positions, Assigned]
  visited := by simp [Pass.positions]
  needed := by simp [Pass.positions]
  complete := by simp

/-- A first pass runs everything. -/
theorem positions_through_initial (before rest : List ReactiveDeclaration)
    (traced : Traced (before ++ rest) start p) (all : p.positions = List.range before.length) :
    Traced (before ++ rest) start (p.through true before.length rest) ∧
      (p.through true before.length rest).positions = List.range (before ++ rest).length := by
  induction rest generalizing before p with
  | nil => simpa [Pass.through, all] using traced
  | cons d rest ih =>
    have next := traced.record (n := before.length) (d := d) (by simp [all]) (by simp)
    have whole : before ++ d :: rest = (before ++ [d]) ++ rest := by simp
    have visited : before.length + 1 = (before ++ [d]).length := by simp
    rw [Pass.through, Pass.step, Bool.true_or, if_pos rfl]
    rw [whole] at next ⊢
    rw [visited]
    refine ih (before ++ [d]) next ?_
    rw [positions_record, all, ← visited, List.range_succ]

/-! ## The declarations of a component -/

/-- When producers come first, a pass reaches all that it must. -/
theorem Stage.closed (stage : Stage declarations start declarations.length p)
    (sorted : ∀ j i, Schedule.Produces declarations j i → j < i) :
    Closed declarations start {k | k ∈ p.positions} := by
  rintro k d found ⟨name, dependency, reason⟩
  have valid : k < declarations.length := (List.getElem?_eq_some_iff.1 found).1
  rcases reason with mem | ⟨j, mem, producer, found', assigned⟩
  · exact stage.complete k valid d found ⟨name, dependency, .inl mem⟩
  by_cases same : j = k
  · exact same ▸ mem
  · have lt : j < k := sorted j k ⟨same, producer, d, found', found, name, dependency, assigned⟩
    exact stage.complete k valid d found
      ⟨name, dependency, .inr ⟨j, ⟨mem, lt⟩, producer, found', assigned⟩⟩

theorem before_of_lt {positions : List Nat} (ascending : positions.Pairwise (· < ·)) {j k : Nat}
    (mem_j : j ∈ positions) (mem_k : k ∈ positions) (lt : j < k) :
    Schedule.Before positions j k := by
  rcases Nat.lt_trichotomy (positions.idxOf j) (positions.idxOf k) with before | same | behind
  · exact before
  · exact absurd ((List.idxOf_inj mem_j).1 same) (Nat.ne_of_lt lt)
  · have gt := List.pairwise_iff_getElem.1 ascending _ _ (List.idxOf_lt_length_of_mem mem_k)
      (List.idxOf_lt_length_of_mem mem_j) behind
    rw [List.getElem_idxOf, List.getElem_idxOf] at gt
    omega

/-- What it means that a pass over declarations, started with some names, is complete. -/
structure Complete (declarations : List ReactiveDeclaration) (start : List String) (p : Pass) :
    Prop extends Traced declarations start p where
  /-- What has run is the least set that holds all that depends on the first names or on a
  member. -/
  least : IsLeast {positions | Closed declarations start positions} {k | k ∈ p.positions}
  /-- Each has run once. -/
  once : p.positions.Nodup
  /-- It has run after its producers. -/
  after_producers : ∀ j ∈ p.positions, ∀ k ∈ p.positions, Schedule.Produces declarations j k →
    Schedule.Before p.positions j k

/-- **One pass is enough**: if the reactive declarations of a component have no cycle of producers,
the statements that recompute them run, for every batch of changed names, exactly the declarations
that the batch concerns, directly or through others, each once and after its producers, and leave
what these assign in the batch. The first time they run every declaration once, in the same
order. -/
theorem recomputation_complete (component : Component) (marker : String)
    (acyclic : Schedule.Acyclic (extractReactive component.script).declarations)
    (batch : List String) :
    (∃ p, run false 0 (guardedRecomputation (component.analyze marker).analysis Vocabulary.changed)
          ⟨batch, []⟩ = some p ∧
        Complete (component.analyze marker).analysis.declarations batch p) ∧
      ∃ p, run true 0 (guardedRecomputation (component.analyze marker).analysis Vocabulary.changed)
          ⟨batch, []⟩ = some p ∧
        Traced (component.analyze marker).analysis.declarations batch p ∧
        p.positions = List.range (component.analyze marker).analysis.declarations.length := by
  -- only here the order of the declarations matters: producers come first
  have sorted : ∀ j i,
      Schedule.Produces (component.analyze marker).analysis.declarations j i → j < i :=
    fun j i produces => lt_of_produces_orderReactive acyclic produces
  generalize (component.analyze marker).analysis = analysis at sorted
  have first := stage_start analysis.declarations batch
  refine ⟨⟨_, run_guarded false 0 _ _, ?_⟩, ⟨_, run_guarded true 0 _ _, ?_⟩⟩
  · have stage := Stage.through [] _ first
    refine ⟨stage.toTraced, ⟨stage.closed sorted, stage.needed⟩, ?_, ?_⟩
    · exact stage.ascending.imp Nat.ne_of_lt
    · intro j mem_j k mem_k produces
      exact before_of_lt stage.ascending mem_j mem_k (sorted j k produces)
  · exact positions_through_initial [] _ first.toTraced rfl

/-- A declaration in front of its producer, one that nothing concerns, and the producer. -/
def backwardChain : Component where
  html := []
  script :=
    [.labeled "$" (.expression (.assignment "=" (.identifier "c") (.identifier "b"))),
      .labeled "$" (.expression (.assignment "=" (.identifier "z") (.identifier "y"))),
      .labeled "$" (.expression (.assignment "=" (.identifier "b") (.identifier "a")))]

theorem recomputation_complete_backwardChain :
    Schedule.Acyclic (extractReactive backwardChain.script).declarations ∧
      run false 0 (guardedRecomputation (backwardChain.analyze "on:").analysis Vocabulary.changed)
          ⟨["a"], []⟩ =
        some ⟨["a", "b", "c"], [(1, "b = a;\n"), (2, "c = b;\n")]⟩ ∧
      ∃ p, run false 0
            (guardedRecomputation (backwardChain.analyze "on:").analysis Vocabulary.changed)
            ⟨["a"], []⟩ = some p ∧
        Complete (backwardChain.analyze "on:").analysis.declarations ["a"] p := by
  have acyclic : Schedule.Acyclic (extractReactive backwardChain.script).declarations :=
    Schedule.acyclic_of_rank (5 - ·) (by decide)
  exact ⟨acyclic, by decide +kernel, (recomputation_complete backwardChain "on:" acyclic ["a"]).1⟩

end ReactiveMarkup.Recomputation
