import Mathlib.Data.Fintype.Card
import Mathlib.Data.Fintype.EquivFin
import Mathlib.Data.Fintype.Sets
import Mathlib.Data.List.Lex
import Mathlib.Order.Bounds.Defs
import Mathlib.Order.WellFounded
import ReactiveMarkup.Reactivity.Order

/-!
# The order of reactive declarations is a stable topological sort

Declarations are told apart by their positions, since two of them may be equal. The schedule runs
every position once. As long as a pending declaration is not reached by a cycle of producers, some
pending declaration is ready (`exists_ready`), so the rule for cycles is used only when every
pending declaration is behind a cycle. Hence whatever is not behind a cycle runs after its producers
(`before_of_grounded`), and without cycles the choice of the first ready position makes the schedule
the least of all orders in which producers come first (`schedule_le`).
-/

namespace ReactiveMarkup

namespace Schedule

open Relation (TransGen ReflTransGen)

section

variable (declarations : List ReactiveDeclaration)

/-! ## Producers -/

/-- Whether the declaration at position `j` is another one than that at position `i` and assigns
something that the latter depends on. -/
def Produces (j i : Nat) : Prop :=
  j ≠ i ∧ ∃ producer consumer, declarations[j]? = some producer ∧
    declarations[i]? = some consumer ∧ ∃ name ∈ consumer.dependencies, name ∈ producer.assignees

/-- No declaration is its own producer, not even through others. -/
def Acyclic : Prop := ∀ i, ¬ TransGen (Produces declarations) i i

/-- Neither the declaration at a position nor any of its producers, direct or not, is on a cycle of
producers. -/
def Grounded (i : Nat) : Prop :=
  ∀ j, ReflTransGen (Produces declarations) j i → ¬ TransGen (Produces declarations) j j

/-- Whether an order has position `j` in front of position `i`. -/
def Before (order : List Nat) (j i : Nat) : Prop := order.idxOf j < order.idxOf i

/-- Whether an order has every producer in front of what depends on it. -/
def ProducersFirst (order : List Nat) : Prop :=
  ∀ j i, Produces declarations j i → Before order j i

end

variable {declarations : List ReactiveDeclaration} {pending : List Nat} {i j k : Nat}

theorem isProducer_iff : isProducer declarations j i = true ↔ Produces declarations j i := by
  unfold isProducer Produces
  cases declarations[j]? <;> cases declarations[i]? <;>
    simp [ReactiveDeclaration.produces]

theorem isReady_iff :
    isReady declarations pending i = true ↔ ∀ j ∈ pending, ¬ Produces declarations j i := by
  simp [isReady, ← isProducer_iff]

theorem Produces.lt_left (h : Produces declarations j i) : j < declarations.length := by
  obtain ⟨-, producer, _, found, -⟩ := h
  exact (List.getElem?_eq_some_iff.1 found).1

theorem Produces.lt_right (h : Produces declarations j i) : i < declarations.length := by
  obtain ⟨-, _, consumer, -, found, -⟩ := h
  exact (List.getElem?_eq_some_iff.1 found).1

instance (declarations : List ReactiveDeclaration) (j i : Nat) :
    Decidable (Produces declarations j i) :=
  decidable_of_iff _ isProducer_iff

/-- A position is grounded if it belongs to a set that holds the producers of its members and on
which producers have a lesser rank. -/
theorem grounded_of_rank (inside : Nat → Prop) (rank : Nat → Nat)
    (descends : ∀ j < declarations.length, ∀ i < declarations.length, Produces declarations j i →
      inside i → inside j ∧ rank j < rank i)
    (h : inside i) : Grounded declarations i := by
  have lesser : ∀ {a b}, TransGen (Produces declarations) a b → inside b →
      inside a ∧ rank a < rank b := by
    intro a b chain
    induction chain with
    | single last => exact descends _ last.lt_left _ last.lt_right last
    | tail _ last ih =>
      intro within
      obtain ⟨within', lt⟩ := descends _ last.lt_left _ last.lt_right last within
      exact ⟨(ih within').1, (ih within').2.trans lt⟩
  intro j leads cycle
  have within : inside j := by
    rcases Relation.reflTransGen_iff_eq_or_transGen.1 leads with rfl | chain
    · exact h
    · exact (lesser chain h).1
  exact Nat.lt_irrefl _ (lesser cycle within).2

/-- There is no cycle if every producer has a lesser rank. -/
theorem acyclic_of_rank (rank : Nat → Nat)
    (descends : ∀ j < declarations.length, ∀ i < declarations.length, Produces declarations j i →
      rank j < rank i) : Acyclic declarations := fun i =>
  grounded_of_rank (fun _ => True) rank
    (fun j hj i hi produces _ => ⟨trivial, descends j hj i hi produces⟩) trivial i .refl

/-- If no cycle of a relation leads to a pending position, and pending producers stand in that
relation to what depends on them, then some pending position is ready. -/
theorem exists_ready_of_acyclic {r : Nat → Nat → Prop}
    (related : ∀ j ∈ pending, ∀ i ∈ pending, Produces declarations j i → r j i) (mem : i ∈ pending)
    (free : ∀ j, ReflTransGen r j i → ¬ TransGen r j j) :
    ∃ k ∈ pending, isReady declarations pending k = true := by
  -- on the pending positions that lead to `i`, leading to one another is a strict order
  let earlier (a b : {j // j ∈ pending}) : Prop := TransGen r a b ∧ ReflTransGen r b i
  have trans : IsTrans _ earlier := ⟨fun _ _ _ first second => ⟨first.1.trans second.1, second.2⟩⟩
  have irrefl : Std.Irrefl earlier := ⟨fun a cycle => free a cycle.2 cycle.1⟩
  have founded : WellFounded earlier := Finite.wellFounded_of_trans_of_irrefl earlier
  obtain ⟨⟨k, pending_k⟩, leads, least⟩ :=
    founded.has_min {a | ReflTransGen r a i} ⟨⟨i, mem⟩, .refl⟩
  refine ⟨k, pending_k, isReady_iff.2 fun j pending_j produces => ?_⟩
  have step : r j k := related j pending_j k pending_k produces
  exact least ⟨j, pending_j⟩ (.head step leads) ⟨.single step, leads⟩

/-- Among the positions that lead to a grounded one there is a ready one. -/
theorem exists_ready (grounded : Grounded declarations i) (mem : i ∈ pending) :
    ∃ r ∈ pending, isReady declarations pending r = true :=
  exists_ready_of_acyclic (fun _ _ _ _ produces => produces) mem grounded

/-! ## One step of the schedule -/

theorem mem_of_next? (h : next? declarations pending = some k) : k ∈ pending := by
  unfold next? at h
  rcases Option.or_eq_some_iff.1 h with found | ⟨-, first⟩
  · exact List.mem_of_find?_eq_some found
  · exact List.mem_of_head? first

theorem exists_next? (declarations : List ReactiveDeclaration) (h : pending ≠ []) :
    ∃ k, next? declarations pending = some k := by
  unfold next?
  cases pending with
  | nil => exact absurd rfl h
  | cons first rest =>
    cases List.find? (isReady declarations (first :: rest)) (first :: rest) with
    | none => exact ⟨first, rfl⟩
    | some r => exact ⟨r, rfl⟩

/-- If anything is ready, the position that runs next is, and none in front of it. -/
theorem next?_of_ready (h : next? declarations pending = some k)
    (ready : ∃ r ∈ pending, isReady declarations pending r = true) :
    isReady declarations pending k = true ∧ ∃ before behind, pending = before ++ k :: behind ∧
      ∀ r ∈ before, isReady declarations pending r = false := by
  unfold next? at h
  rcases Option.or_eq_some_iff.1 h with found | ⟨none_found, -⟩
  · obtain ⟨ready_k, before, behind, split, unready⟩ := List.find?_eq_some_iff_append.1 found
    exact ⟨ready_k, before, behind, split, fun r mem => by simpa using unready r mem⟩
  · obtain ⟨r, mem, ready_r⟩ := ready
    exact absurd ready_r (List.find?_eq_none.1 none_found r mem)

/-- Of ascending positions the least ready one runs next. -/
theorem next?_le (h : next? declarations pending = some k) (ascending : pending.Pairwise (· < ·))
    (mem : i ∈ pending) (ready : isReady declarations pending i = true) : k ≤ i := by
  obtain ⟨-, before, behind, rfl, unready⟩ := next?_of_ready h ⟨i, mem, ready⟩
  rcases List.mem_append.1 mem with early | late
  · exact absurd (unready i early) (by simp [ready])
  rcases List.mem_cons.1 late with rfl | late
  · exact Nat.le_refl i
  · have tail := (List.pairwise_append.1 ascending).2.1
    exact Nat.le_of_lt ((List.pairwise_cons.1 tail).1 i late)

/-! ## The whole schedule -/

/-- A schedule takes each pending position once. -/
theorem schedule_perm (declarations : List ReactiveDeclaration) :
    ∀ (n : Nat) (pending : List Nat), pending.length = n →
      (schedule declarations n pending).Perm pending
  | 0, pending, length => by
    rw [List.length_eq_zero_iff.1 length]
    exact .nil
  | n + 1, pending, length => by
    obtain ⟨k, next⟩ := exists_next? declarations (List.ne_nil_of_length_eq_add_one length)
    have mem := mem_of_next? next
    rw [schedule, next]
    have rest := schedule_perm declarations n (pending.erase k)
      (by rw [List.length_erase_of_mem mem, length, Nat.add_sub_cancel])
    exact (rest.cons k).trans (List.perm_cons_erase mem).symm

theorem before_cons_self {order : List Nat} (ne : k ≠ i) : Before (k :: order) k i := by
  simp [Before, ne]

theorem before_cons {order : List Nat} (ne_j : k ≠ j) (ne_i : k ≠ i) :
    Before (k :: order) j i ↔ Before order j i := by
  simp [Before, ne_j, ne_i]

/-- A pending position that no cycle leads to comes behind its pending producers. -/
theorem before_of_grounded (grounded : Grounded declarations i)
    (produces : Produces declarations j i) :
    ∀ (n : Nat) (pending : List Nat), pending.length = n → j ∈ pending → i ∈ pending →
      Before (schedule declarations n pending) j i
  | 0, pending, length, mem_j, _ => by
    rw [List.length_eq_zero_iff.1 length] at mem_j
    cases mem_j
  | n + 1, pending, length, mem_j, mem_i => by
    obtain ⟨k, next⟩ := exists_next? declarations (List.ne_nil_of_length_eq_add_one length)
    rw [schedule, next]
    -- `i` itself cannot be next, since its producer `j` is pending
    have ne_i : k ≠ i := by
      rintro rfl
      have ready := (next?_of_ready next (exists_ready grounded mem_i)).1
      exact isReady_iff.1 ready j mem_j produces
    by_cases same : k = j
    · subst same
      exact before_cons_self ne_i
    · refine (before_cons same ne_i).2 (before_of_grounded grounded produces n (pending.erase k)
        ?_ ?_ ?_)
      · rw [List.length_erase_of_mem (mem_of_next? next), length, Nat.add_sub_cancel]
      · exact (List.mem_erase_of_ne (Ne.symm same)).2 mem_j
      · exact (List.mem_erase_of_ne (Ne.symm ne_i)).2 mem_i

/-- Without cycles, no order of the pending positions that puts producers first is less than the
schedule. -/
theorem schedule_le (acyclic : Acyclic declarations) :
    ∀ (n : Nat) (pending other : List Nat), pending.length = n → pending.Pairwise (· < ·) →
      other.Perm pending →
      (∀ j ∈ pending, ∀ i ∈ pending, Produces declarations j i → Before other j i) →
      schedule declarations n pending ≤ other
  | 0, pending, other, length, _, perm, _ => by
    rw [List.length_eq_zero_iff.1 length] at perm
    rw [perm.eq_nil]
    exact le_refl _
  | n + 1, pending, other, length, ascending, perm, first => by
    obtain ⟨k, next⟩ := exists_next? declarations (List.ne_nil_of_length_eq_add_one length)
    have mem_k := mem_of_next? next
    rw [schedule, next]
    cases other with
    | nil => exact absurd (perm.mem_iff.2 mem_k) List.not_mem_nil
    | cons x others =>
      have mem_x : x ∈ pending := perm.mem_iff.1 List.mem_cons_self
      -- what an order starts with has no pending producer
      have ready_x : isReady declarations pending x = true := by
        refine isReady_iff.2 fun j mem_j produces => ?_
        have before := first j mem_j x mem_x produces
        simp [Before, List.idxOf_cons] at before
      rcases Nat.lt_or_eq_of_le (next?_le next ascending mem_x ready_x) with lt | rfl
      · exact le_of_lt (List.Lex.rel lt)
      · refine List.cons_le_cons k (schedule_le acyclic n (pending.erase k) others ?_ ?_ ?_ ?_)
        · rw [List.length_erase_of_mem mem_k, length, Nat.add_sub_cancel]
        · exact ascending.sublist List.erase_sublist
        · exact (perm.trans (List.perm_cons_erase mem_k)).cons_inv
        · intro j mem_j i mem_i produces
          have nodup : pending.Nodup := ascending.imp Nat.ne_of_lt
          obtain ⟨ne_j, mem_j⟩ := nodup.mem_erase_iff.1 mem_j
          obtain ⟨ne_i, mem_i⟩ := nodup.mem_erase_iff.1 mem_i
          exact (before_cons ne_j.symm ne_i.symm).1 (first j mem_j i mem_i produces)

/-! ## All positions -/

theorem positions_perm (declarations : List ReactiveDeclaration) :
    (positions declarations).Perm (List.range declarations.length) :=
  schedule_perm declarations _ _ List.length_range

theorem before_positions (grounded : Grounded declarations i)
    (produces : Produces declarations j i) : Before (positions declarations) j i :=
  before_of_grounded grounded produces _ _ List.length_range
    (List.mem_range.2 produces.lt_left) (List.mem_range.2 produces.lt_right)

theorem Acyclic.grounded (acyclic : Acyclic declarations) (i : Nat) : Grounded declarations i :=
  fun j _ => acyclic j

/-- Without cycles the schedule puts producers first, and is the least order that does. -/
theorem isLeast_positions (acyclic : Acyclic declarations) :
    IsLeast {order | order.Perm (List.range declarations.length) ∧
      ProducersFirst declarations order} (positions declarations) := by
  refine ⟨⟨positions_perm declarations, fun j i produces => ?_⟩, ?_⟩
  · exact before_positions (acyclic.grounded i) produces
  · rintro order ⟨perm, first⟩
    exact schedule_le acyclic _ _ order List.length_range List.pairwise_lt_range perm
      fun j _ i _ produces => first j i produces

/-- What it means that an order of the positions sorts declarations. -/
structure StablySorts (declarations : List ReactiveDeclaration) (order : List Nat) : Prop where
  /-- Every position comes once. -/
  perm : order.Perm (List.range declarations.length)
  /-- What no cycle leads to comes behind its producers. -/
  after_producers : ∀ j i, Grounded declarations i → Produces declarations j i → Before order j i
  /-- Without cycles there is no lesser order with the producers first. -/
  least : Acyclic declarations → IsLeast {other | other.Perm (List.range declarations.length) ∧
    ProducersFirst declarations other} order

theorem stablySorts_positions (declarations : List ReactiveDeclaration) :
    StablySorts declarations (positions declarations) :=
  ⟨positions_perm declarations, fun _ _ => before_positions, isLeast_positions⟩

end Schedule

theorem filterMap_getElem?_range {α : Type} (items : List α) :
    (List.range items.length).filterMap (items[·]?) = items := by
  induction items with
  | nil => rfl
  | cons first rest ih =>
    rw [List.length_cons, List.range_succ_eq_map, List.filterMap_cons, List.filterMap_map]
    exact congrArg (first :: ·) ih

/-- The declarations that run are those at the positions of the schedule. -/
theorem map_orderReactive (declarations : List ReactiveDeclaration) :
    (orderReactive declarations).map some =
      (Schedule.positions declarations).map (declarations[·]?) := by
  have valid : ∀ i ∈ Schedule.positions declarations, i < declarations.length := fun i mem =>
    List.mem_range.1 ((Schedule.positions_perm declarations).mem_iff.1 mem)
  rw [orderReactive, List.map_filterMap]
  refine List.filterMap_eq_map_iff_forall_eq_some.2 fun i mem => ?_
  simp [List.getElem?_eq_getElem (valid i mem)]

theorem orderReactive_perm (declarations : List ReactiveDeclaration) :
    (orderReactive declarations).Perm declarations := by
  have perm := (Schedule.positions_perm declarations).filterMap (declarations[·]?)
  rwa [filterMap_getElem?_range] at perm

/-- What runs at place `k` has a position in the script, and the schedule has it at place `k`. -/
theorem exists_position {declarations : List ReactiveDeclaration} {d : ReactiveDeclaration}
    {k : Nat} (found : (orderReactive declarations)[k]? = some d) :
    ∃ i, (Schedule.positions declarations)[k]? = some i ∧ declarations[i]? = some d := by
  have same := congrArg (·[k]?) (map_orderReactive declarations)
  simp only [List.getElem?_map, found, Option.map_some] at same
  exact Option.map_eq_some_iff.1 same.symm

/-- Without cycles, every declaration that runs comes behind its producers. -/
theorem lt_of_produces_orderReactive {declarations : List ReactiveDeclaration}
    (acyclic : Schedule.Acyclic declarations) {j i : Nat}
    (produces : Schedule.Produces (orderReactive declarations) j i) : j < i := by
  obtain ⟨ne, producer, consumer, found_j, found_i, shared⟩ := produces
  obtain ⟨_, position_j, source_j⟩ := exists_position found_j
  obtain ⟨_, position_i, source_i⟩ := exists_position found_i
  obtain ⟨valid_j, rfl⟩ := List.getElem?_eq_some_iff.1 position_j
  obtain ⟨valid_i, rfl⟩ := List.getElem?_eq_some_iff.1 position_i
  have nodup : (Schedule.positions declarations).Nodup :=
    (Schedule.positions_perm declarations).nodup_iff.2 List.nodup_range
  have distinct : (Schedule.positions declarations)[j] ≠ (Schedule.positions declarations)[i] :=
    fun same => ne (nodup.getElem_inj_iff.1 same)
  have before := Schedule.before_positions (acyclic.grounded _)
    ⟨distinct, producer, consumer, source_j, source_i, shared⟩
  rwa [Schedule.Before, nodup.idxOf_getElem, nodup.idxOf_getElem] at before

/-- **Reactive declarations are sorted stably by what they depend on**: the result is a permutation
of the declarations, and it runs them in an order of their positions in which producers come first
where no cycle prevents it, and which is the least such order if there is no cycle. -/
theorem orderReactive_stablySorts (declarations : List ReactiveDeclaration) :
    (orderReactive declarations).Perm declarations ∧
      ∃ order, Schedule.StablySorts declarations order ∧
        (orderReactive declarations).map some = order.map (declarations[·]?) :=
  ⟨orderReactive_perm declarations, Schedule.positions declarations,
    Schedule.stablySorts_positions declarations, map_orderReactive declarations⟩

/-- Two declarations that wait for each other, then one behind its producer. -/
def partlyCyclic : List ReactiveDeclaration :=
  [⟨0, default, ["b"], ["a"]⟩, ⟨1, default, ["a"], ["b"]⟩, ⟨2, default, ["y"], ["x"]⟩,
    ⟨3, default, ["s"], ["y"]⟩]

theorem orderReactive_partlyCyclic :
    ¬ Schedule.Acyclic partlyCyclic ∧ Schedule.Grounded partlyCyclic 2 ∧
      (orderReactive partlyCyclic).map ReactiveDeclaration.sourceIndex = [3, 2, 0, 1] ∧
      ∃ order, Schedule.StablySorts partlyCyclic order ∧ Schedule.Before order 3 2 := by
  have cycle : Relation.TransGen (Schedule.Produces partlyCyclic) 0 0 :=
    .tail (.single (show Schedule.Produces partlyCyclic 0 1 by decide)) (by decide)
  have grounded : Schedule.Grounded partlyCyclic 2 :=
    Schedule.grounded_of_rank (2 ≤ ·) (5 - ·) (by decide) (by decide)
  obtain ⟨-, order, sorts, -⟩ := orderReactive_stablySorts partlyCyclic
  exact ⟨fun acyclic => acyclic 0 cycle, grounded, by decide, order, sorts,
    sorts.after_producers 3 2 grounded (by decide)⟩

end ReactiveMarkup
