import ReactiveMarkup.Proofs.ScheduleOrder

/-!
# The order of declarations around cycles

Where declarations wait for each other, the first pending one runs, whether it is on the cycle or
only behind it, and after it those that have become ready. Hence a declaration may overtake its
producer, and the members of a cycle need not run in source order.

What decides are the cycles of producers among the positions from `i` on: position `i` runs before
its turn exactly if such a cycle leads to it (`Looped`). Everything is read off the moment at which
a position runs (`Moment`), when the positions that have not run are known and none of them is ready
before it.
-/

namespace ReactiveMarkup.Schedule

open Relation (TransGen ReflTransGen)

/-! ## Cycles among later positions -/

section

variable (declarations : List ReactiveDeclaration)

/-- Whether the declaration at position `j` is a producer of that at position `i`, and both stand at
position `m` or behind it. -/
def ProducesFrom (m j i : Nat) : Prop := m ≤ j ∧ m ≤ i ∧ Produces declarations j i

/-- Whether a cycle of producers, all of them at position `m` or behind it, leads to position `x`
through such producers. -/
def Looped (m x : Nat) : Prop :=
  ∃ y, TransGen (ProducesFrom declarations m) y y ∧ ReflTransGen (ProducesFrom declarations m) y x

end

variable {declarations : List ReactiveDeclaration} {pending : List Nat} {i j k m x : Nat}

/-- A cycle that leads to a producer leads to what depends on it. -/
theorem Looped.tail (looped : Looped declarations m j) (step : ProducesFrom declarations m j i) :
    Looped declarations m i := by
  obtain ⟨y, cycle, leads⟩ := looped
  exact ⟨y, cycle, leads.tail step⟩

/-- Behind a cycle, every declaration has a producer that is behind it too. -/
theorem Looped.exists_producer (looped : Looped declarations m x) :
    ∃ y, Looped declarations m y ∧ ProducesFrom declarations m y x := by
  obtain ⟨y, cycle, leads⟩ := looped
  rcases ReflTransGen.cases_tail leads with rfl | ⟨z, leads, last⟩
  · obtain ⟨z, leads, last⟩ := TransGen.tail'_iff.1 cycle
    exact ⟨z, ⟨x, cycle, leads⟩, last⟩
  · exact ⟨z, ⟨y, cycle, leads⟩, last⟩

theorem Looped.le (looped : Looped declarations m x) : m ≤ x := by
  obtain ⟨y, -, step⟩ := looped.exists_producer
  exact step.2.1

theorem Looped.lt_length (looped : Looped declarations m x) : x < declarations.length := by
  obtain ⟨y, -, step⟩ := looped.exists_producer
  exact step.2.2.lt_right

/-- If a pending position has no cycle of later positions behind it, some pending one is ready. -/
theorem exists_ready_of_not_looped (later : ∀ y ∈ pending, m ≤ y) (mem : x ∈ pending)
    (free : ¬ Looped declarations m x) : ∃ r ∈ pending, isReady declarations pending r = true := by
  refine exists_ready_of_acyclic (r := ProducesFrom declarations m) ?_ mem ?_
  · exact fun j pending_j i pending_i produces => ⟨later j pending_j, later i pending_i, produces⟩
  · exact fun y leads cycle => free ⟨y, cycle, leads⟩

/-! ## The moment at which a position runs -/

/-- Of ascending positions, the least ready one runs next, and if none is ready the least of all. -/
theorem next?_cases (next : next? declarations pending = some k)
    (ascending : pending.Pairwise (· < ·)) :
    (isReady declarations pending k = true ∧
        ∀ x ∈ pending, isReady declarations pending x = true → k ≤ x) ∨
      (∀ x ∈ pending, isReady declarations pending x ≠ true) ∧ ∀ x ∈ pending, k ≤ x := by
  by_cases ready : ∃ r ∈ pending, isReady declarations pending r = true
  · exact .inl ⟨(next?_of_ready next ready).1, fun x mem => next?_le next ascending mem⟩
  · have none : ∀ x ∈ pending, isReady declarations pending x ≠ true :=
      fun x mem ready_x => ready ⟨x, mem, ready_x⟩
    refine .inr ⟨none, fun x mem => ?_⟩
    rw [next?, List.find?_eq_none.2 none, Option.none_or] at next
    obtain ⟨rest, rfl⟩ := List.head?_eq_some_iff.1 next
    rcases List.mem_cons.1 mem with rfl | mem
    · exact Nat.le_refl x
    · exact Nat.le_of_lt ((List.pairwise_cons.1 ascending).1 x mem)

/-- The positions that are pending when position `k` runs: those that do not run before it. -/
structure Moment (declarations : List ReactiveDeclaration) (k : Nat) (pending : List Nat) :
    Prop where
  next : next? declarations pending = some k
  ascending : pending.Pairwise (· < ·)
  valid : ∀ x ∈ pending, x < declarations.length
  mem_iff : ∀ x < declarations.length, x ∈ pending ↔ ¬ Before (positions declarations) x k

/-- A schedule comes to each pending position. -/
theorem exists_pending (declarations : List ReactiveDeclaration) :
    ∀ (n : Nat) (pending : List Nat), pending.length = n → pending.Pairwise (· < ·) →
      k ∈ pending → ∃ later, next? declarations later = some k ∧ later.Pairwise (· < ·) ∧
        (∀ x ∈ later, x ∈ pending) ∧
        ∀ x ∈ pending, x ∈ later ↔ ¬ Before (schedule declarations n pending) x k
  | 0, pending, length, _, mem => by
    rw [List.length_eq_zero_iff.1 length] at mem
    cases mem
  | n + 1, pending, length, ascending, mem => by
    obtain ⟨first, next⟩ := exists_next? declarations (List.ne_nil_of_length_eq_add_one length)
    rw [schedule, next]
    by_cases same : first = k
    · subst same
      exact ⟨pending, next, ascending, fun _ mem => mem, fun x mem => by simp [Before, mem]⟩
    · -- the one that runs next leaves, and `k` stays among the others
      have nodup : pending.Nodup := ascending.imp Nat.ne_of_lt
      obtain ⟨later, next_k, ascending', subset, mem_iff⟩ :=
        exists_pending declarations n (pending.erase first)
          (by rw [List.length_erase_of_mem (mem_of_next? next), length, Nat.add_sub_cancel])
          (ascending.sublist List.erase_sublist) ((List.mem_erase_of_ne (Ne.symm same)).2 mem)
      refine ⟨later, next_k, ascending', fun x mem => List.mem_of_mem_erase (subset x mem), ?_⟩
      intro x mem_x
      by_cases first_x : first = x
      · subst first_x
        refine iff_of_false (fun mem => ?_) (not_not.2 (before_cons_self same))
        exact (nodup.mem_erase_iff.1 (subset first mem)).1 rfl
      · rw [before_cons first_x same]
        exact mem_iff x ((List.mem_erase_of_ne (Ne.symm first_x)).2 mem_x)

theorem exists_moment (valid : k < declarations.length) :
    ∃ pending, Moment declarations k pending := by
  obtain ⟨pending, next, ascending, subset, mem_iff⟩ :=
    exists_pending declarations declarations.length (List.range declarations.length)
      List.length_range List.pairwise_lt_range (List.mem_range.2 valid)
  exact ⟨pending, next, ascending, fun x mem => List.mem_range.1 (subset x mem),
    fun x lt => mem_iff x (List.mem_range.2 lt)⟩

theorem Before.not_before {order : List Nat} (before : Before order j i) : ¬ Before order i j :=
  Nat.lt_asymm before

/-- Of two positions, one runs before the other. -/
theorem before_or_before (valid : j < declarations.length) (ne : j ≠ i) :
    Before (positions declarations) j i ∨ Before (positions declarations) i j := by
  have mem : j ∈ positions declarations :=
    (positions_perm declarations).mem_iff.2 (List.mem_range.2 valid)
  exact Nat.lt_or_gt_of_ne fun same => ne ((List.idxOf_inj mem).1 same)

theorem Moment.mem_self (moment : Moment declarations k pending) : k ∈ pending :=
  mem_of_next? moment.next

/-- What is pending when a position runs comes behind it. -/
theorem Moment.before (moment : Moment declarations k pending) (mem : x ∈ pending) (ne : x ≠ k) :
    Before (positions declarations) k x := by
  have valid := moment.valid x mem
  exact (before_or_before valid ne).resolve_left ((moment.mem_iff x valid).1 mem)

theorem Moment.mem_of_before (moment : Moment declarations k pending)
    (valid : x < declarations.length) (before : Before (positions declarations) k x) :
    x ∈ pending :=
  (moment.mem_iff x valid).2 before.not_before

/-- A position that is not ready at its moment runs because nothing is, and is the least pending
one. A cycle of later positions leads to all that are pending then. -/
theorem Moment.looped (moment : Moment declarations k pending)
    (unready : isReady declarations pending k ≠ true) (mem : x ∈ pending) :
    Looped declarations k x := by
  rcases next?_cases moment.next moment.ascending with ⟨ready, -⟩ | ⟨none, least⟩
  · exact absurd ready unready
  · by_contra free
    obtain ⟨r, mem_r, ready⟩ := exists_ready_of_not_looped least mem free
    exact none r mem_r ready

/-! ## Which of two positions runs first -/

/-- If a cycle of later positions leads to a position, then it runs before all others to which such
a cycle leads. -/
theorem before_of_looped (looped_i : Looped declarations i i) (looped_k : Looped declarations i k)
    (ne : k ≠ i) : Before (positions declarations) i k := by
  -- of all positions behind such cycles, consider the one that runs first
  obtain ⟨first, looped, least⟩ :=
    WellFounded.has_min (measure fun x => (positions declarations).idxOf x).wf
      {x | Looped declarations i x} ⟨i, looped_i⟩
  obtain ⟨pending, moment⟩ := exists_moment looped.lt_length
  have waiting : ∀ x, Looped declarations i x → x ∈ pending := fun x looped_x =>
    (moment.mem_iff x looped_x.lt_length).2 (least x looped_x)
  have unready : isReady declarations pending first ≠ true := by
    obtain ⟨y, looped_y, step⟩ := looped.exists_producer
    exact fun ready => isReady_iff.1 ready y (waiting y looped_y) step.2.2
  have same : first = i :=
    Nat.le_antisymm (moment.looped unready (waiting i looped_i)).le looped.le
  subst same
  exact moment.before (waiting k looped_k) ne

/-- If a cycle of later positions leads to a position, then all positions to which none leads run
before it. -/
theorem before_of_not_looped (looped : Looped declarations i i) (valid : k < declarations.length)
    (free : ¬ Looped declarations i k) : Before (positions declarations) k i := by
  obtain ⟨pending, moment⟩ := exists_moment looped.lt_length
  by_contra behind
  have mem : k ∈ pending := (moment.mem_iff k valid).2 behind
  -- `i` is not ready at its moment, since it runs before its producer on the way from the cycle
  refine free (moment.looped (fun ready => ?_) mem)
  obtain ⟨y, looped_y, step⟩ := looped.exists_producer
  have before : Before (positions declarations) i y :=
    before_of_looped looped looped_y fun same => step.2.2.1 same
  exact isReady_iff.1 ready y (moment.mem_of_before looped_y.lt_length before) step.2.2

/-- If no cycle of later positions leads to a position, then its producers run before it. -/
theorem before_of_produces (free : ¬ Looped declarations i i)
    (produces : Produces declarations j i) : Before (positions declarations) j i := by
  obtain ⟨pending, moment⟩ := exists_moment produces.lt_right
  by_contra behind
  have mem : j ∈ pending := (moment.mem_iff j produces.lt_left).2 behind
  refine free (moment.looped (fun ready => ?_) moment.mem_self)
  exact isReady_iff.1 ready j mem produces

/-- A producer runs before what depends on it if and only if no cycle among the positions from the
latter on leads to it. -/
theorem before_producer_iff (produces : Produces declarations j i) :
    Before (positions declarations) j i ↔ ¬ Looped declarations i j := by
  constructor
  · intro before looped_j
    have looped_i := looped_j.tail ⟨looped_j.le, Nat.le_refl i, produces⟩
    exact before.not_before (before_of_looped looped_i looped_j produces.1)
  · intro free
    by_cases looped : Looped declarations i i
    · exact before_of_not_looped looped produces.lt_left free
    · exact before_of_produces looped produces

/-- Of two positions that are not behind a cycle of later ones, the earlier one runs first unless it
has a producer that does not run before the later one. -/
theorem before_of_producers (lt : i < k) (valid : k < declarations.length)
    (producers : ∀ j, Produces declarations j i → j ≠ k ∧ Before (positions declarations) j k) :
    Before (positions declarations) i k := by
  obtain ⟨pending, moment⟩ := exists_moment valid
  by_contra behind
  have mem : i ∈ pending := (moment.mem_iff i (lt.trans valid)).2 behind
  rcases next?_cases moment.next moment.ascending with ⟨-, least⟩ | ⟨-, least⟩
  · -- `i` would have been ready, since its producers have run
    refine Nat.not_le_of_lt lt (least i mem (isReady_iff.2 fun j mem_j produces => ?_))
    exact (moment.mem_iff j (moment.valid j mem_j)).1 mem_j (producers j produces).2
  · exact Nat.not_le_of_lt lt (least i mem)

/-- When the earlier of two positions runs first. -/
theorem before_later_iff (lt : i < k) (valid : k < declarations.length) :
    Before (positions declarations) i k ↔
      (Looped declarations i i ∧ Looped declarations i k) ∨
      ¬ Looped declarations i i ∧
        ∀ j, Produces declarations j i → j ≠ k ∧ Before (positions declarations) j k := by
  by_cases looped : Looped declarations i i
  · have ne : k ≠ i := Nat.ne_of_gt lt
    simp only [looped, true_and, not_true, false_and, or_false]
    refine ⟨fun before => ?_, fun looped_k => before_of_looped looped looped_k ne⟩
    by_contra free
    exact before.not_before (before_of_not_looped looped valid free)
  · simp only [looped, false_and, not_false_iff, true_and, false_or]
    refine ⟨fun before j produces => ?_, before_of_producers lt valid⟩
    have first := before_of_produces looped produces
    refine ⟨?_, Nat.lt_trans first before⟩
    rintro rfl
    exact first.not_before before

/-! ## Members of a common cycle -/

/-- Whether two positions are on a common cycle of producers. -/
def OnCommonCycle (declarations : List ReactiveDeclaration) (i k : Nat) : Prop :=
  TransGen (Produces declarations) i k ∧ TransGen (Produces declarations) k i

/-- A cycle through a position has no position before `m` if none of the positions that are on a
common cycle with it stands there. -/
theorem transGen_producesFrom (first : ∀ x, OnCommonCycle declarations i x → m ≤ x)
    (chain : TransGen (Produces declarations) i k) (back : TransGen (Produces declarations) k i) :
    TransGen (ProducesFrom declarations m) i k := by
  induction chain with
  | single step =>
    have chain : TransGen (Produces declarations) i _ := .single step
    exact .single ⟨first _ ⟨chain.trans back, chain.trans back⟩, first _ ⟨chain, back⟩, step⟩
  | tail chain step ih =>
    have back' := TransGen.head step back
    exact .tail (ih back') ⟨first _ ⟨chain, back'⟩, first _ ⟨chain.tail step, back⟩, step⟩

/-- The earliest of the positions on a common cycle runs before the others. -/
theorem before_of_earliest (common : OnCommonCycle declarations i k) (ne : k ≠ i)
    (earliest : ∀ x, OnCommonCycle declarations i x → i ≤ x) :
    Before (positions declarations) i k := by
  have leads := transGen_producesFrom earliest common.1 common.2
  have cycle := transGen_producesFrom earliest (common.1.trans common.2) (common.1.trans common.2)
  exact before_of_looped ⟨i, cycle, .refl⟩ ⟨i, cycle, leads.to_reflTransGen⟩ ne

/-! ## The declarations that run -/

/-- Whether declarations run in an order of their positions. -/
structure RunsIn (declarations : List ReactiveDeclaration) (order : List Nat) : Prop where
  perm : order.Perm (List.range declarations.length)
  same : (orderReactive declarations).map some = order.map (declarations[·]?)

theorem runsIn_positions (declarations : List ReactiveDeclaration) :
    RunsIn declarations (positions declarations) :=
  ⟨positions_perm declarations, map_orderReactive declarations⟩

/-- A declaration runs behind its producer if and only if no cycle of producers, all of them at its
own position or behind it, leads to that producer. -/
theorem producer_runs_first_iff (declarations : List ReactiveDeclaration) :
    ∃ order, RunsIn declarations order ∧
      ∀ j i, Produces declarations j i → (Before order j i ↔ ¬ Looped declarations i j) :=
  ⟨positions declarations, runsIn_positions declarations, fun _ _ => before_producer_iff⟩

/-- Two declarations that wait for each other, and one behind them. -/
def followedCycle : List ReactiveDeclaration :=
  [⟨0, default, ["b"], ["a"]⟩, ⟨1, default, ["a"], ["b"]⟩, ⟨2, default, ["b"], ["c"]⟩]

theorem producer_runs_first_followedCycle :
    Produces followedCycle 1 2 ∧ OnCommonCycle followedCycle 0 1 ∧
      (orderReactive followedCycle).map ReactiveDeclaration.sourceIndex = [0, 1, 2] ∧
      ∃ order, RunsIn followedCycle order ∧ Before order 1 2 := by
  have produces : Produces followedCycle 1 2 := by decide
  obtain ⟨order, runs, first⟩ := producer_runs_first_iff followedCycle
  refine ⟨produces, ⟨.single (by decide), .single (by decide)⟩, by decide, order, runs, ?_⟩
  exact (first 1 2 produces).2 fun looped => absurd looped.le (by decide)

/-- A declaration in front of two that wait for each other, one of which is its producer. -/
def precededCycle : List ReactiveDeclaration :=
  [⟨0, default, ["b"], ["a"]⟩, ⟨1, default, ["c"], ["b"]⟩, ⟨2, default, ["b"], ["c"]⟩]

/-- A declaration that is on no cycle overtakes its producer. -/
theorem overtaken_producer :
    Produces precededCycle 1 0 ∧ ¬ TransGen (Produces precededCycle) 0 1 ∧
      (orderReactive precededCycle).map ReactiveDeclaration.sourceIndex = [0, 1, 2] := by
  refine ⟨by decide, fun chain => ?_, by decide⟩
  have barren : ∀ x < 3, ¬ Produces precededCycle 0 x := by decide
  obtain ⟨x, step, -⟩ := TransGen.head'_iff.1 chain
  exact barren x step.lt_right step

/-- The earliest position of a cycle runs before the others on it. Of any two positions, the earlier
one runs first if and only if either a cycle among the positions from it on leads to both, or none
leads to it and all its producers run before the later one. -/
theorem source_order_kept_iff (declarations : List ReactiveDeclaration) :
    ∃ order, RunsIn declarations order ∧
      (∀ i k, OnCommonCycle declarations i k → k ≠ i →
        (∀ x, OnCommonCycle declarations i x → i ≤ x) → Before order i k) ∧
      ∀ i k, i < k → k < declarations.length →
        (Before order i k ↔
          (Looped declarations i i ∧ Looped declarations i k) ∨
          ¬ Looped declarations i i ∧
            ∀ j, Produces declarations j i → j ≠ k ∧ Before order j k) :=
  ⟨positions declarations, runsIn_positions declarations, fun _ _ => before_of_earliest,
    fun _ _ => before_later_iff⟩

/-- Three declarations of which each waits for the next one, and the last for the first. -/
def backwardCycle : List ReactiveDeclaration :=
  [⟨0, default, ["b"], ["a"]⟩, ⟨1, default, ["c"], ["b"]⟩, ⟨2, default, ["a"], ["c"]⟩]

/-- The members of a cycle do not run in source order. -/
theorem exchanged_members :
    OnCommonCycle backwardCycle 1 2 ∧
      (orderReactive backwardCycle).map ReactiveDeclaration.sourceIndex = [0, 2, 1] := by
  have back : TransGen (Produces backwardCycle) 2 1 := .single (by decide)
  have forth : TransGen (Produces backwardCycle) 1 2 :=
    .tail (.single (show Produces backwardCycle 1 0 by decide)) (by decide)
  exact ⟨⟨forth, back⟩, by decide⟩

/-- The first member of that cycle does run first. -/
theorem source_order_kept_backwardCycle :
    OnCommonCycle backwardCycle 0 2 ∧ ∃ order, RunsIn backwardCycle order ∧ Before order 0 2 := by
  have forth : TransGen (Produces backwardCycle) 0 2 := .single (by decide)
  have back : TransGen (Produces backwardCycle) 2 0 :=
    .tail (.single (show Produces backwardCycle 2 1 by decide)) (by decide)
  obtain ⟨order, runs, earliest, -⟩ := source_order_kept_iff backwardCycle
  exact ⟨⟨forth, back⟩, order, runs,
    earliest 0 2 ⟨forth, back⟩ (by decide) fun x _ => Nat.zero_le x⟩

end ReactiveMarkup.Schedule
