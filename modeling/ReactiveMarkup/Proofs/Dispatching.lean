import Mathlib.Algebra.GroupWithZero.Nat
import Mathlib.Data.List.Nodup
import ReactiveMarkup.Proofs.Execution

/-!
# The dispatcher

The function that notifies names puts them into a queue. If no call of it is draining the queue, it
drains the queue itself, batch by batch; other code that it runs meanwhile may notify more names,
but such calls only queue them.

At most two calls of it are ever going on: an outermost one, and one made by other code that the
outermost one runs for a batch. `Outer` and `Inner` list where the two can stand, `Phase` which
calls there are, and the `Invariant` adds that the array of the queue is out of reach of other code
and that every name that is `Owed` is in the queue or on its way. One lemma for each stage shows
that the next step keeps the invariant (`Consistent.step`), and every run keeps it
(`Consistent.run`). What other code can rely on (`Orderly`) follows from it.
-/

namespace ReactiveMarkup.Execution

open Emission (Statement Expression)
open Client (invoke assignTo dispatcher)

/-! ## The code of the dispatcher -/

/-- Puts the name at hand into the queue. -/
def pushName : Statement :=
  invoke Vocabulary.pending "push" [.identifier Vocabulary.name]

/-- Puts the name at hand into the queue unless it is there. -/
def offer : Statement :=
  .guarded
    (.unary "!" (.callMethod (.identifier Vocabulary.pending) "includes"
      [.identifier Vocabulary.name]))
    [pushName]

/-- Leaves the queue to a call that is draining it. -/
def giveWay : Statement :=
  .guarded (.identifier Vocabulary.dispatching) [.verbatim "return;"]

/-- Notes that the queue is being drained. -/
def seize : Statement := assignTo Vocabulary.dispatching (.boolean true)

/-- Takes the queue for a batch. -/
def take : Statement := .constant Vocabulary.batch (.identifier Vocabulary.pending)

/-- Starts a new queue. -/
def renew : Statement := assignTo Vocabulary.pending (.array [])

/-- Runs the reactive declarations that the batch concerns. -/
def recompute : Statement :=
  .expression (.call (.identifier Vocabulary.recompute) [.identifier Vocabulary.batch])

/-- Updates the document for the batch. -/
def update : Statement := invoke Vocabulary.lifecycle "update" [.identifier Vocabulary.batch]

/-- Updates the document if there is one. -/
def refresh : Statement := .guarded (.identifier Vocabulary.mounted) [update]

/-- Drains the queue, batch by batch. -/
def drain : Statement :=
  .loop (.binary (.member (.identifier Vocabulary.pending) "length") ">" (.number 0))
    [take, renew, recompute, refresh]

/-- Notes that the queue is not being drained any more. -/
def release : Statement := assignTo Vocabulary.dispatching (.boolean false)

/-- What is done once the names are in the queue. -/
def afterQueuing : List Statement := [giveWay, seize, .ensured [drain] [release]]

/-- The dispatcher is made of these parts. -/
theorem dispatcher_eq : dispatcher =
    .function Vocabulary.update [Vocabulary.changed]
      (.each Vocabulary.name (.identifier Vocabulary.changed) [offer] :: afterQueuing) := rfl

/-! ## What runs of the dispatcher have in common -/

/-- Whether a call has no names of its own for the variables of the module. -/
structure Proper (locals : Names) : Prop where
  pending : locals Vocabulary.pending = none
  dispatching : locals Vocabulary.dispatching = none
  mounted : locals Vocabulary.mounted = none

theorem Proper.bind_name {locals : Names} (h : Proper locals) (value : Value) :
    Proper (locals.bind Vocabulary.name value) :=
  ⟨h.pending, h.dispatching, h.mounted⟩

theorem Proper.bind_batch {locals : Names} (h : Proper locals) (value : Value) :
    Proper (locals.bind Vocabulary.batch value) :=
  ⟨h.pending, h.dispatching, h.mounted⟩

/-- The queue of a machine: which array it is, and the names in it. It holds no name twice, and
other code has not got hold of it. -/
structure Queue (m : Machine) (queue : Nat) (names : List String) : Prop where
  pending : m.globals Vocabulary.pending = some (.array queue)
  items : m.arrays[queue]? = some names
  distinct : names.Nodup
  hidden : queue ∉ m.shared
  made : ∀ array ∈ m.shared, array < m.arrays.length
  mounted : ∃ mounted, m.globals Vocabulary.mounted = some (.boolean mounted)

theorem Queue.of_eq {m m' : Machine} {queue : Nat} {names : List String} (h : Queue m queue names)
    (globals : m'.globals = m.globals) (arrays : m'.arrays = m.arrays)
    (shared : m'.shared = m.shared) : Queue m' queue names where
  pending := by rw [globals, h.pending]
  items := by rw [arrays, h.items]
  distinct := h.distinct
  hidden := by rw [shared]; exact h.hidden
  made := by rw [shared, arrays]; exact h.made
  mounted := by rw [globals]; exact h.mounted

/-! ## The queue as arrays change -/

section

variable {m : Machine} {queue : Nat} {names : List String}

theorem Queue.lt_length (h : Queue m queue names) : queue < m.arrays.length :=
  (List.getElem?_eq_some_iff.1 h.items).1

/-- A new queue has been started. -/
theorem Queue.new (made : ∀ array ∈ m.shared, array < m.arrays.length)
    (mounted : ∃ mounted, m.globals Vocabulary.mounted = some (.boolean mounted)) :
    Queue { m with
      globals := m.globals.bind Vocabulary.pending (.array m.arrays.length)
      arrays := m.arrays ++ [[]] } m.arrays.length [] where
  pending := Names.bind_self m.globals Vocabulary.pending (.array m.arrays.length)
  items := List.getElem?_concat_length
  distinct := List.nodup_nil
  hidden mem := Nat.lt_irrefl _ (made _ mem)
  made array mem := by
    have lt := made array mem
    rw [List.length_append]
    omega
  mounted := mounted

/-- A name that is not in the queue is put into it. -/
theorem Queue.push (h : Queue m queue names) {name : String} (absent : name ∉ names) :
    Queue { m with arrays := m.arrays.set queue (names ++ [name]) } queue (names ++ [name]) where
  pending := h.pending
  items := List.getElem?_set_self h.lt_length
  distinct := List.nodup_append.2 ⟨h.distinct, List.nodup_singleton _, by
    rintro a mem b mem' rfl
    exact absent (List.mem_singleton.1 mem' ▸ mem)⟩
  hidden := h.hidden
  made other mem := by
    rw [List.length_set]
    exact h.made other mem
  mounted := h.mounted

/-- An array is made. -/
theorem Queue.create (h : Queue m queue names) (items : List String) :
    Queue { m with arrays := m.arrays ++ [items] } queue names where
  pending := h.pending
  items := by rw [List.getElem?_append_left h.lt_length, h.items]
  distinct := h.distinct
  hidden := h.hidden
  made array mem := by
    rw [List.length_append]
    exact Nat.lt_add_right _ (h.made array mem)
  mounted := h.mounted

/-- Another array than the queue is given other items. -/
theorem Queue.write (h : Queue m queue names) {array : Nat} (apart : array ≠ queue)
    (items : List String) : Queue { m with arrays := m.arrays.set array items } queue names where
  pending := h.pending
  items := by rw [List.getElem?_set_ne apart, h.items]
  distinct := h.distinct
  hidden := h.hidden
  made other mem := by
    rw [List.length_set]
    exact h.made other mem
  mounted := h.mounted

/-- Other code gets hold of another array than the queue. -/
theorem Queue.share (h : Queue m queue names) {array : Nat} (apart : array ≠ queue)
    (made : array < m.arrays.length) :
    Queue { m with shared := array :: m.shared } queue names where
  pending := h.pending
  items := h.items
  distinct := h.distinct
  hidden mem := by
    rcases List.mem_cons.1 mem with rfl | mem
    · exact apart rfl
    · exact h.hidden mem
  made other mem := by
    rcases List.mem_cons.1 mem with rfl | mem
    · exact made
    · exact h.made other mem
  mounted := h.mounted

/-- The queue is noted to be drained, or not to be. -/
theorem Queue.mark (h : Queue m queue names) (draining : Bool) :
    Queue { m with globals := m.globals.bind Vocabulary.dispatching (.boolean draining) } queue
      names :=
  ⟨h.pending, h.items, h.distinct, h.hidden, h.made, h.mounted⟩

/-- The component is mounted or unmounted. -/
theorem Queue.mount (h : Queue m queue names) (mounted : Bool) :
    Queue { m with globals := m.globals.bind Vocabulary.mounted (.boolean mounted) } queue names :=
  ⟨h.pending, h.items, h.distinct, h.hidden, h.made, mounted,
    Names.bind_self m.globals Vocabulary.mounted (.boolean mounted)⟩

end

/-! ## Evaluation in a call -/

section

variable {m : Machine} {locals : Names}

theorem names_of_none {name : String} (free : locals name = none) :
    m.names locals name = m.globals name := by
  rw [Machine.names, free, Option.none_or]

theorem names_of_some {name : String} {value : Value} (own : locals name = some value) :
    m.names locals name = some value := by
  rw [Machine.names, own, Option.some_or]

theorem array?_identifier {name : String} {number : Nat} {items : List String}
    (value : m.names locals name = some (.array number)) (found : m.arrays[number]? = some items) :
    m.array? locals (.identifier name) = some (number, items) := by
  simp [Machine.array?, Machine.value?, evaluate, value, found]

theorem truth?_identifier {name : String} {holds : Bool}
    (value : m.names locals name = some (.boolean holds)) :
    m.truth? locals (.identifier name) = some holds := by
  simp [Machine.truth?, Machine.value?, evaluate, value]

variable {queue : Nat} {names : List String}

theorem Queue.names_pending (h : Queue m queue names) (proper : Proper locals) :
    m.names locals Vocabulary.pending = some (.array queue) := by
  rw [names_of_none proper.pending, h.pending]

/-- The test whether the name at hand is missing in the queue. -/
theorem Queue.truth?_offer (h : Queue m queue names) (proper : Proper locals) {name : String}
    (own : locals Vocabulary.name = some (.text name)) :
    m.truth? locals (.unary "!" (.callMethod (.identifier Vocabulary.pending) "includes"
      [.identifier Vocabulary.name])) = some (decide (name ∉ names)) := by
  simp [Machine.truth?, Machine.value?, Expression.callMethod, evaluate, h.names_pending proper,
    names_of_some own, h.items]

/-- The test whether there is anything in the queue. -/
theorem Queue.truth?_drain (h : Queue m queue names) (proper : Proper locals) :
    m.truth? locals (.binary (.member (.identifier Vocabulary.pending) "length") ">"
      (.number 0)) = some (decide (names ≠ [])) := by
  simp [Machine.truth?, Machine.value?, evaluate, h.names_pending proper, h.items,
    List.length_pos_iff]

end

/-! ## Names that are owed -/

/-- Whether a name was notified and has not been handed to the reactive declarations since. -/
def Owed (name : String) : List Event → Prop
  | [] => False
  | .called names :: older => name ∈ names ∨ Owed name older
  | .handed function names :: older =>
    ¬ (function = Vocabulary.recompute ∧ name ∈ names) ∧ Owed name older
  | .ended _ :: older => Owed name older

/-- A name that is not owed has been handed over after each call that notified it. -/
theorem exists_handed_of_not_owed {name : String} {newer older : List Event} {names : List String}
    (mem : name ∈ names) (settled : ¬ Owed name (newer ++ .called names :: older)) :
    ∃ batch, .handed Vocabulary.recompute batch ∈ newer ∧ name ∈ batch := by
  induction newer with
  | nil => exact absurd (.inl mem) settled
  | cons event newer ih =>
    have later : ¬ Owed name (newer ++ .called names :: older) →
        ∃ batch, .handed Vocabulary.recompute batch ∈ event :: newer ∧ name ∈ batch := by
      intro settled
      obtain ⟨batch, handed, mem⟩ := ih settled
      exact ⟨batch, List.mem_cons_of_mem _ handed, mem⟩
    cases event with
    | called others => exact later fun owed => settled (.inr owed)
    | ended completion => exact later settled
    | handed function batch =>
      by_cases gone : function = Vocabulary.recompute ∧ name ∈ batch
      · obtain ⟨rfl, mem⟩ := gone
        exact ⟨batch, List.mem_cons_self, mem⟩
      · exact later fun owed => settled ⟨gone, owed⟩

/-! ## Where calls of the dispatcher stand -/

/-- The task that takes the names of an array from an index on. -/
def queuing (array index : Nat) : Task := .iterate Vocabulary.name array index [offer]

/-- Where a call stands that is queuing the names it was called with, and the names that are still
to be queued. -/
inductive Queuing (arrays : List (List String)) (queue : Nat) (names : List String) :
    Names → List Task → List String → Prop
  | entered {locals : Names} {array : Nat} {items : List String}
      (changed : locals Vocabulary.changed = some (.array array))
      (found : arrays[array]? = some items) (apart : array ≠ queue) :
      Queuing arrays queue names locals
        (statements (.each Vocabulary.name (.identifier Vocabulary.changed) [offer] ::
          afterQueuing)) items
  | iterating {locals : Names} {array index : Nat} {items : List String}
      (found : arrays[array]? = some items) (apart : array ≠ queue) :
      Queuing arrays queue names locals (queuing array index :: statements afterQueuing)
        (items.drop index)
  | offering {locals : Names} {array index : Nat} {items : List String} {name : String}
      (found : arrays[array]? = some items) (apart : array ≠ queue)
      (own : locals Vocabulary.name = some (.text name)) :
      Queuing arrays queue names locals
        (.statement offer :: queuing array (index + 1) :: statements afterQueuing)
        (name :: items.drop (index + 1))
  | pushing {locals : Names} {array index : Nat} {items : List String} {name : String}
      (found : arrays[array]? = some items) (apart : array ≠ queue)
      (own : locals Vocabulary.name = some (.text name)) (absent : name ∉ names) :
      Queuing arrays queue names locals
        (.statement pushName :: queuing array (index + 1) :: statements afterQueuing)
        (name :: items.drop (index + 1))
  | queued {locals : Names} : Queuing arrays queue names locals (statements afterQueuing) []

/-- What a step of a call that is queuing names does: it changes the queue at most. -/
structure QueuingStep (m : Machine) (queue : Nat) (names : List String) (owing : List String)
    (below : List Frame) (m' : Machine) (names' : List String) (locals' : Names)
    (tasks' : List Task) (owing' : List String) : Prop where
  frames : m'.frames = .code ⟨locals', tasks'⟩ :: below
  globals : m'.globals = m.globals
  shared : m'.shared = m.shared
  history : m'.history = m.history
  length : m'.arrays.length = m.arrays.length
  after : Queue m' queue names'
  proper : Proper locals'
  stage : Queuing m'.arrays queue names' locals' tasks' owing'
  kept : ∀ name, name ∈ names ∨ name ∈ owing → name ∈ names' ∨ name ∈ owing'

/-- A step that leaves everything but the tasks of the call as it is. -/
theorem QueuingStep.of_go {m : Machine} {queue : Nat} {names owing owing' : List String}
    {below : List Frame} {locals' : Names} {tasks' : List Task} (h : Queue m queue names)
    (proper : Proper locals') (stage : Queuing m.arrays queue names locals' tasks' owing')
    (kept : ∀ name, name ∈ names ∨ name ∈ owing → name ∈ names ∨ name ∈ owing') :
    QueuingStep m queue names owing below (m.go locals' tasks' below) names locals' tasks'
      owing' where
  frames := rfl
  globals := rfl
  shared := rfl
  history := rfl
  length := rfl
  after := h.of_eq rfl rfl rfl
  proper := proper
  stage := stage
  kept := kept

/-- A step that puts the name at hand into the queue. -/
theorem QueuingStep.of_push {m : Machine} {queue array index : Nat} {names items : List String}
    {name : String} (h : Queue m queue names) {locals : Names} (proper : Proper locals)
    (found : m.arrays[array]? = some items) (apart : array ≠ queue) (absent : name ∉ names)
    (below : List Frame) :
    QueuingStep m queue names (name :: items.drop (index + 1)) below
      ({ m with arrays := m.arrays.set queue (names ++ [name]) }.go locals
        (queuing array (index + 1) :: statements afterQueuing) below)
      (names ++ [name]) locals (queuing array (index + 1) :: statements afterQueuing)
      (items.drop (index + 1)) where
  frames := rfl
  globals := rfl
  shared := rfl
  history := rfl
  length := List.length_set
  after := (h.push absent).of_eq rfl rfl rfl
  proper := proper
  stage := by
    have found' : (m.arrays.set queue (names ++ [name]))[array]? = some items := by
      rw [List.getElem?_set_ne (Ne.symm apart), found]
    exact .iterating found' apart
  kept other kept := by
    rcases kept with kept | kept
    · exact .inl (List.mem_append_left _ kept)
    · rcases List.mem_cons.1 kept with rfl | kept
      · exact .inl (List.mem_append_right _ List.mem_cons_self)
      · exact .inr kept

/-- A call that is queuing names goes on until all of them are in the queue. -/
theorem Queuing.advance {m : Machine} {queue : Nat} {names owing : List String} {locals : Names}
    {tasks : List Task} (h : Queue m queue names) (proper : Proper locals)
    (stage : Queuing m.arrays queue names locals tasks owing) (below : List Frame) :
    (tasks = statements afterQueuing ∧ owing = []) ∨
      ∃ m' names' locals' tasks' owing', m.advance ⟨locals, tasks⟩ below = some m' ∧
        QueuingStep m queue names owing below m' names' locals' tasks' owing' := by
  cases stage with
  | queued => exact .inl ⟨rfl, rfl⟩
  | entered changed found apart =>
    rename_i array
    have stage : Queuing m.arrays queue names locals (queuing array 0 :: statements afterQueuing)
        owing := .iterating found apart
    refine .inr ⟨_, names, locals, queuing array 0 :: statements afterQueuing, owing, ?_,
      .of_go h proper stage fun _ mem => mem⟩
    simp only [statements, List.map_cons, Machine.advance, Machine.execute,
      array?_identifier (names_of_some changed) found, Option.map_some, queuing]
  | iterating found apart =>
    rename_i array index items
    cases next : items[index]? with
    | none =>
      have ended : items.drop index = [] :=
        List.drop_eq_nil_iff.2 (List.getElem?_eq_none_iff.1 next)
      refine .inr ⟨_, names, locals, statements afterQueuing, [], ?_,
        .of_go h proper .queued (by simp [ended])⟩
      simp only [queuing, Machine.advance, found, Option.map_some, next]
    | some name =>
      have split : items.drop index = name :: items.drop (index + 1) := by
        obtain ⟨lt, rfl⟩ := List.getElem?_eq_some_iff.1 next
        exact List.drop_eq_getElem_cons lt
      refine .inr ⟨_, names, locals.bind Vocabulary.name (.text name),
        .statement offer :: queuing array (index + 1) :: statements afterQueuing,
        name :: items.drop (index + 1), ?_,
        .of_go h (proper.bind_name _) (.offering found apart (Names.bind_self ..))
          (by simp [split])⟩
      simp only [queuing, Machine.advance, found, Option.map_some, next]
      rfl
  | offering found apart own =>
    rename_i array index items name
    by_cases mem : name ∈ names
    · refine .inr ⟨_, names, locals, queuing array (index + 1) :: statements afterQueuing,
        items.drop (index + 1), ?_,
        .of_go h proper (.iterating found apart) fun other kept => ?_⟩
      · simp only [offer, Machine.advance, Machine.execute, h.truth?_offer proper own, mem,
          not_true, decide_false, Option.map_some, if_neg Bool.false_ne_true]
      · rcases kept with kept | kept
        · exact .inl kept
        · rcases List.mem_cons.1 kept with rfl | kept
          · exact .inl mem
          · exact .inr kept
    · refine .inr ⟨_, names, locals,
        .statement pushName :: queuing array (index + 1) :: statements afterQueuing,
        name :: items.drop (index + 1), ?_,
        .of_go h proper (.pushing found apart own mem) fun _ kept => kept⟩
      simp only [offer, Machine.advance, Machine.execute, h.truth?_offer proper own, mem,
        not_false_eq_true, decide_true, Option.map_some, if_true]
      rfl
  | pushing found apart own absent =>
    refine .inr ⟨_, _, _, _, _, ?_, .of_push h proper found apart absent below⟩
    simp [pushName, invoke, Expression.callMethod, Machine.advance, Machine.execute,
      Machine.effect, array?_identifier (h.names_pending proper) h.items, Machine.value?,
      evaluate, names_of_some own]

/-- What is left of a call that drains the queue, behind a batch. -/
def draining : List Task := [.statement drain, .finalize [release]]

/-- Where a call that drains the queue stands while other code is in control: it runs the reactive
declarations, or it updates the document. -/
inductive Waiting (arrays : List (List String)) (queue : Nat) : Names → List Task → Prop
  | recomputing {locals : Names} {batch : Nat}
      (own : locals Vocabulary.batch = some (.array batch)) (made : batch < arrays.length)
      (apart : batch ≠ queue) : Waiting arrays queue locals (.statement refresh :: draining)
  | updating {locals : Names} : Waiting arrays queue locals draining

/-- Where a call stands that was made while the queue was not being drained: whether it is draining
the queue now, and the names that it has still to put into the queue or to hand over. -/
inductive Outer (arrays : List (List String)) (queue : Nat) (names : List String) :
    Bool → Names → List Task → List String → Prop
  | queuing {locals : Names} {tasks : List Task} {owing : List String}
      (stage : Queuing arrays queue names locals tasks owing) :
      Outer arrays queue names false locals tasks owing
  | seizing {locals : Names} :
      Outer arrays queue names false locals (statements [seize, .ensured [drain] [release]]) []
  | opening {locals : Names} :
      Outer arrays queue names true locals (statements [.ensured [drain] [release]]) []
  | resuming {locals : Names} {tasks : List Task} (stage : Waiting arrays queue locals tasks) :
      Outer arrays queue names true locals tasks []
  | taking {locals : Names} :
      Outer arrays queue names true locals
        (statements [take, renew, recompute, refresh] ++ draining) []
  | renewing {locals : Names} (own : locals Vocabulary.batch = some (.array queue)) :
      Outer arrays queue names true locals (statements [renew, recompute, refresh] ++ draining) []
  | recomputing {locals : Names} {batch : Nat} {items : List String}
      (own : locals Vocabulary.batch = some (.array batch)) (found : arrays[batch]? = some items)
      (distinct : items.Nodup) (apart : batch ≠ queue) :
      Outer arrays queue names true locals (statements [recompute, refresh] ++ draining) items
  | updating {locals : Names} {batch : Nat}
      (own : locals Vocabulary.batch = some (.array batch)) (made : batch < arrays.length)
      (apart : batch ≠ queue) :
      Outer arrays queue names true locals (.statement update :: draining) []
  | closing {locals : Names} (empty : names = []) :
      Outer arrays queue names true locals [.finalize [release]] []
  | releasing {locals : Names} (empty : names = []) :
      Outer arrays queue names true locals (statements [release]) []
  | failing {locals : Names} :
      Outer arrays queue names true locals (statements [release] ++ [.complete .thrown]) []
  | released {locals : Names} (empty : names = []) :
      Outer arrays queue names false locals [] []
  | failed {locals : Names} :
      Outer arrays queue names false locals [.complete .thrown] []

/-- Where a call stands that was made while the queue was being drained. -/
inductive Inner (arrays : List (List String)) (queue : Nat) (names : List String) :
    Names → List Task → List String → Prop
  | queuing {locals : Names} {tasks : List Task} {owing : List String}
      (stage : Queuing arrays queue names locals tasks owing) :
      Inner arrays queue names locals tasks owing
  | yielding {locals : Names} :
      Inner arrays queue names locals
        (statements [.verbatim "return;", seize, .ensured [drain] [release]]) []
  | returning {locals : Names} : Inner arrays queue names locals [.complete .returned] []

/-- Which calls are going on, whether the queue is being drained, and the names that are still to be
put into the queue or to be handed over. -/
inductive Phase (m : Machine) (queue : Nat) (names : List String) : Bool → List String → Prop
  | idle (frames : m.frames = [.foreign])
      (drained : ∀ older, m.history = .ended .returned :: older → names = []) :
      Phase m queue names false []
  | outer {busy : Bool} {locals : Names} {tasks : List Task} {owing : List String}
      (frames : m.frames = [.code ⟨locals, tasks⟩, .foreign]) (proper : Proper locals)
      (stage : Outer m.arrays queue names busy locals tasks owing) : Phase m queue names busy owing
  | waiting {locals : Names} {tasks : List Task}
      (frames : m.frames = [.foreign, .code ⟨locals, tasks⟩, .foreign]) (proper : Proper locals)
      (stage : Waiting m.arrays queue locals tasks) : Phase m queue names true []
  | inner {locals locals' : Names} {tasks tasks' : List Task} {owing : List String}
      (frames : m.frames =
        [.code ⟨locals', tasks'⟩, .foreign, .code ⟨locals, tasks⟩, .foreign])
      (proper : Proper locals) (stage : Waiting m.arrays queue locals tasks)
      (proper' : Proper locals') (stage' : Inner m.arrays queue names locals' tasks' owing) :
      Phase m queue names true owing

/-- What holds of a machine at every step. -/
structure Invariant (m : Machine) (queue : Nat) (names : List String) (busy : Bool)
    (owing : List String) : Prop where
  sound : Queue m queue names
  dispatching : m.globals Vocabulary.dispatching = some (.boolean busy)
  phase : Phase m queue names busy owing
  owed : ∀ name, Owed name m.history → name ∈ names ∨ name ∈ owing
  handed : ∀ batch, .handed Vocabulary.recompute batch ∈ m.history → batch.Nodup

/-- Whether the invariant holds of a machine for some queue. -/
def Consistent (m : Machine) : Prop := ∃ queue names busy owing, Invariant m queue names busy owing

/-! ## Steps of the dispatcher -/

section

variable {m : Machine} {queue : Nat} {names owing : List String} {busy : Bool} {locals : Names}
  {tasks : List Task}

theorem Invariant.consistent (h : Invariant m queue names busy owing) : Consistent m :=
  ⟨queue, names, busy, owing, h⟩

/-- Calls go on, and nothing else changes. -/
theorem Invariant.with_frames (h : Invariant m queue names busy owing) {frames : List Frame}
    {owing' : List String} (phase : Phase { m with frames := frames } queue names busy owing')
    (kept : ∀ name ∈ owing, name ∈ names ∨ name ∈ owing') :
    Consistent { m with frames := frames } := by
  have after : Invariant { m with frames := frames } queue names busy owing' := by
    refine ⟨h.sound.of_eq rfl rfl rfl, h.dispatching, phase, fun name owed => ?_, h.handed⟩
    rcases h.owed name owed with mem | mem
    · exact .inl mem
    · exact kept name mem
  exact after.consistent

/-- An outermost call goes on, and nothing but its tasks changes. -/
theorem Invariant.go (h : Invariant m queue names busy owing) {locals' : Names}
    {tasks' : List Task} {owing' : List String} (proper : Proper locals')
    (stage : Outer m.arrays queue names busy locals' tasks' owing')
    (kept : ∀ name ∈ owing, name ∈ names ∨ name ∈ owing') :
    Consistent (m.go locals' tasks' [.foreign]) :=
  h.with_frames (.outer rfl proper stage) kept

/-- A call that is queuing names goes on. -/
theorem QueuingStep.consistent (h : Invariant m queue names busy owing) {m' : Machine}
    {below : List Frame} {names' owing' : List String} {locals' : Names} {tasks' : List Task}
    (step : QueuingStep m queue names owing below m' names' locals' tasks' owing')
    (phase : Phase m' queue names' busy owing') : Consistent m' := by
  have after : Invariant m' queue names' busy owing' := by
    refine ⟨step.after, ?_, phase, ?_, ?_⟩
    · rw [step.globals, h.dispatching]
    · rw [step.history]
      exact fun name owed => step.kept name (h.owed name owed)
    · rw [step.history]
      exact h.handed
  exact after.consistent

/-- The queue is being drained from here on, or not any more. -/
theorem Invariant.assign_dispatching (h : Invariant m queue names busy []) (proper : Proper locals)
    (value : Bool) {tasks' : List Task}
    (stage : Outer m.arrays queue names value locals tasks' []) :
    Consistent (m.assign locals Vocabulary.dispatching (.boolean value) tasks' [.foreign]) := by
  rw [Machine.assign, proper.dispatching]
  have after : Invariant
      ({ m with globals := m.globals.bind Vocabulary.dispatching (.boolean value) }.go locals tasks'
        [.foreign])
      queue names value [] :=
    ⟨(h.sound.mark value).of_eq rfl rfl rfl,
      Names.bind_self m.globals Vocabulary.dispatching (.boolean value),
      .outer rfl proper stage, h.owed, h.handed⟩
  exact after.consistent

/-- The queue has been taken for a batch, and a new one is started. -/
theorem Invariant.assign_pending (h : Invariant m queue names true []) (proper : Proper locals)
    (own : locals Vocabulary.batch = some (.array queue)) :
    Consistent ({ m with arrays := m.arrays ++ [[]] }.assign locals Vocabulary.pending
      (.array m.arrays.length) (statements [recompute, refresh] ++ draining) [.foreign]) := by
  have batch : (m.arrays ++ [[]])[queue]? = some names := by
    rw [List.getElem?_append_left h.sound.lt_length, h.sound.items]
  rw [Machine.assign, proper.pending]
  have after : Invariant ({ m with
      globals := m.globals.bind Vocabulary.pending (.array m.arrays.length)
      arrays := m.arrays ++ [[]] }.go locals (statements [recompute, refresh] ++ draining)
      [.foreign]) m.arrays.length [] true names := by
    refine ⟨(Queue.new h.sound.made h.sound.mounted).of_eq rfl rfl rfl, h.dispatching,
      .outer rfl proper (.recomputing own batch h.sound.distinct (Nat.ne_of_lt h.sound.lt_length)),
      fun name owed => ?_, h.handed⟩
    rcases h.owed name owed with mem | mem
    · exact .inr mem
    · cases mem
  exact after.consistent

/-- A batch is handed to other code. -/
theorem Invariant.handOver (h : Invariant m queue names true owing) (proper : Proper locals)
    (function : String) {batch : Nat} {items : List String} (found : m.arrays[batch]? = some items)
    (apart : batch ≠ queue) (stage : Waiting m.arrays queue locals tasks)
    (distinct : function = Vocabulary.recompute → items.Nodup)
    (kept : ∀ name ∈ owing, function = Vocabulary.recompute ∧ name ∈ items) :
    Consistent (m.handOver function batch items [.code ⟨locals, tasks⟩, .foreign]) := by
  have after : Invariant (m.handOver function batch items [.code ⟨locals, tasks⟩, .foreign])
      queue names true [] := by
    have made : batch < m.arrays.length := (List.getElem?_eq_some_iff.1 found).1
    refine ⟨(h.sound.share apart made).of_eq rfl rfl rfl, h.dispatching,
      .waiting rfl proper stage, ?_, ?_⟩
    · rintro name ⟨remains, owed⟩
      rcases h.owed name owed with mem | mem
      · exact .inl mem
      · exact absurd (kept name mem) remains
    · intro batch' mem
      rcases List.mem_cons.1 mem with eq | mem
      · obtain ⟨rfl, rfl⟩ := Event.handed.inj eq
        exact distinct rfl
      · exact h.handed batch' mem
  exact after.consistent

/-- The test before a call drains the queue. -/
theorem Invariant.advance_afterQueuing (h : Invariant m queue names busy owing)
    (proper : Proper locals) (below : List Frame) :
    m.advance ⟨locals, statements afterQueuing⟩ below =
      some (m.go locals
        (if busy then statements [.verbatim "return;", seize, .ensured [drain] [release]]
          else statements [seize, .ensured [drain] [release]]) below) := by
  have told : m.names locals Vocabulary.dispatching = some (.boolean busy) := by
    rw [names_of_none proper.dispatching, h.dispatching]
  cases busy <;>
  simp [afterQueuing, statements, giveWay, Machine.advance, Machine.execute,
    truth?_identifier told]

/-- The outermost call has ended. -/
theorem Invariant.ended (h : Invariant m queue names false []) (completion : Completion)
    (drained : completion = .returned → names = []) :
    Consistent ({ m with frames := [.foreign] }.note (.ended completion)) := by
  have after : Invariant ({ m with frames := [.foreign] }.note (.ended completion)) queue names
      false [] := by
    refine ⟨h.sound.of_eq rfl rfl rfl, h.dispatching, .idle rfl fun older eq => ?_, h.owed,
      fun batch mem => h.handed batch ?_⟩
    · exact drained (Event.ended.inj (List.head_eq_of_cons_eq eq))
    · rcases List.mem_cons.1 mem with eq | mem
      · cases eq
      · exact mem
  exact after.consistent

/-- An outermost call takes its next step. -/
theorem Invariant.advance_outer (h : Invariant m queue names busy owing) (proper : Proper locals)
    (stage : Outer m.arrays queue names busy locals tasks owing) :
    ∃ m', m.advance ⟨locals, tasks⟩ [.foreign] = some m' ∧ Consistent m' := by
  cases stage with
  | queuing stage =>
    rcases stage.advance h.sound proper [.foreign] with ⟨rfl, rfl⟩ | ⟨m', _, _, _, _, eq, step⟩
    · exact ⟨_, h.advance_afterQueuing proper _, h.go proper .seizing (by simp)⟩
    · exact ⟨m', eq, step.consistent h (.outer step.frames step.proper (.queuing step.stage))⟩
  | seizing => exact ⟨_, rfl, h.assign_dispatching proper true .opening⟩
  | opening => exact ⟨_, rfl, h.go proper (.resuming .updating) (by simp)⟩
  | resuming stage =>
    cases stage with
    | recomputing own made apart =>
      obtain ⟨mounted, told⟩ := h.sound.mounted
      have told : m.names locals Vocabulary.mounted = some (.boolean mounted) := by
        rw [names_of_none proper.mounted, told]
      refine ⟨m.go locals (if mounted then .statement update :: draining else draining) [.foreign],
        ?_, ?_⟩
      · simp [refresh, statements, Machine.advance, Machine.execute, truth?_identifier told]
      · cases mounted with
        | true => exact h.go proper (.updating own made apart) (by simp)
        | false => exact h.go proper (.resuming .updating) (by simp)
    | updating =>
      refine ⟨m.go locals
        (if names ≠ [] then statements [take, renew, recompute, refresh] ++ draining
          else [.finalize [release]]) [.foreign], ?_, ?_⟩
      · simp [draining, drain, Machine.advance, Machine.execute, h.sound.truth?_drain proper]
      · split
        · exact h.go proper .taking (by simp)
        · rename_i empty
          exact h.go proper (.closing (not_not.1 empty)) (by simp)
  | taking =>
    refine ⟨m.go (locals.bind Vocabulary.batch (.array queue))
      (statements [renew, recompute, refresh] ++ draining) [.foreign], ?_, ?_⟩
    · simp [statements, take, Machine.advance, Machine.execute, Machine.value?, evaluate,
        h.sound.names_pending proper]
    · exact h.go (proper.bind_batch _) (.renewing (Names.bind_self ..)) (by simp)
  | renewing own => exact ⟨_, rfl, h.assign_pending proper own⟩
  | recomputing own found distinct apart =>
    refine ⟨_, ?_, h.handOver proper Vocabulary.recompute found apart
      (.recomputing own (List.getElem?_eq_some_iff.1 found).1 apart) (fun _ => distinct)
      fun name mem => ⟨rfl, mem⟩⟩
    simp [statements, recompute, Machine.advance, Machine.execute, Machine.effect,
      Machine.functionName?, array?_identifier (names_of_some own) found]
  | updating own made apart =>
    have found := List.getElem?_eq_getElem made
    refine ⟨_, ?_, h.handOver proper (Vocabulary.lifecycle ++ "." ++ "update") found
      apart .updating (fun eq => absurd eq (by decide)) (by simp)⟩
    simp [update, invoke, Expression.callMethod, Machine.advance, Machine.execute,
      Machine.effect, Machine.functionName?, array?_identifier (names_of_some own) found]
  | closing empty => exact ⟨_, rfl, h.go proper (.releasing empty) (by simp)⟩
  | releasing empty => exact ⟨_, rfl, h.assign_dispatching proper false (.released empty)⟩
  | failing => exact ⟨_, rfl, h.assign_dispatching proper false .failed⟩
  | released empty => exact ⟨_, rfl, h.ended .returned fun _ => empty⟩
  | failed => exact ⟨_, rfl, h.ended .thrown fun eq => nomatch eq⟩

theorem Waiting.mono {arrays arrays' : List (List String)}
    (stage : Waiting arrays queue locals tasks) (le : arrays.length ≤ arrays'.length) :
    Waiting arrays' queue locals tasks := by
  cases stage with
  | recomputing own made apart => exact .recomputing own (Nat.lt_of_lt_of_le made le) apart
  | updating => exact .updating

/-- A call that was made while the queue was being drained takes its next step. -/
theorem Invariant.advance_inner (h : Invariant m queue names true owing) {locals' : Names}
    {tasks' : List Task} (proper : Proper locals) (stage : Waiting m.arrays queue locals tasks)
    (proper' : Proper locals') (stage' : Inner m.arrays queue names locals' tasks' owing) :
    ∃ m', m.advance ⟨locals', tasks'⟩ [.foreign, .code ⟨locals, tasks⟩, .foreign] = some m' ∧
      Consistent m' := by
  cases stage' with
  | queuing stage' =>
    rcases stage'.advance h.sound proper' [.foreign, .code ⟨locals, tasks⟩, .foreign] with
      ⟨rfl, rfl⟩ | ⟨m', _, _, _, _, eq, step⟩
    · exact ⟨_, h.advance_afterQueuing proper' _,
        h.with_frames (.inner rfl proper stage proper' .yielding) (by simp)⟩
    · exact ⟨m', eq, step.consistent h (.inner step.frames proper
        (stage.mono (Nat.le_of_eq step.length.symm)) step.proper (.queuing step.stage))⟩
  | yielding =>
    exact ⟨_, rfl, h.with_frames (.inner rfl proper stage proper' .returning) (by simp)⟩
  | returning =>
    refine ⟨_, rfl, Invariant.consistent (?_ : Invariant _ queue names true [])⟩
    refine ⟨h.sound.of_eq rfl rfl rfl, h.dispatching, .waiting rfl proper stage, h.owed,
      fun batch mem => h.handed batch ?_⟩
    rcases List.mem_cons.1 mem with eq | mem
    · cases eq
    · exact mem

/-- Generated code that is in control is never stuck. -/
theorem Invariant.advance (h : Invariant m queue names busy owing) {a : Activation}
    {below : List Frame} (frames : m.frames = .code a :: below) :
    ∃ m', m.advance a below = some m' ∧ Consistent m' := by
  cases h.phase with
  | idle eq _ => cases eq.symm.trans frames
  | waiting eq _ _ => cases eq.symm.trans frames
  | outer eq proper stage =>
    cases eq.symm.trans frames
    exact h.advance_outer proper stage
  | inner eq proper stage proper' stage' =>
    cases eq.symm.trans frames
    exact h.advance_inner proper stage proper' stage'

/-! ## Steps of other code -/

/-- Other code that is in control cannot break the queue by what it does on its own. -/
theorem Invariant.meddle (h : Invariant m queue names busy owing) {below : List Frame}
    (foreign : m.frames = .foreign :: below) {m' : Machine} (sound : Queue m' queue names)
    (dispatching : m'.globals Vocabulary.dispatching = m.globals Vocabulary.dispatching)
    (frames : m'.frames = m.frames) (history : m'.history = m.history)
    (length : m.arrays.length ≤ m'.arrays.length) : Consistent m' := by
  refine Invariant.consistent (?_ : Invariant m' queue names busy owing)
  refine ⟨sound, by rw [dispatching, h.dispatching], ?_, by rw [history]; exact h.owed,
    by rw [history]; exact h.handed⟩
  cases h.phase with
  | idle eq drained => exact .idle (frames.trans eq) (by rw [history]; exact drained)
  | waiting eq proper stage => exact .waiting (frames.trans eq) proper (stage.mono length)
  | outer eq _ _ => cases eq.symm.trans foreign
  | inner eq _ _ _ _ => cases eq.symm.trans foreign

/-- Other code calls the function that notifies names. -/
theorem Invariant.notify (h : Invariant m queue names busy owing) {below : List Frame}
    (foreign : m.frames = .foreign :: below) {array : Nat} {items : List String}
    (reached : array ∈ m.shared) (found : m.arrays[array]? = some items) {a : Activation}
    (call : activation? [.array array] dispatcher = some a) :
    Consistent ({ m with frames := .code a :: .foreign :: below }.note (.called items)) := by
  rw [dispatcher_eq] at call
  cases call
  have apart : array ≠ queue := by
    rintro rfl
    exact h.sound.hidden reached
  have proper : Proper fun name => ([Vocabulary.changed].zip [Value.array array]).lookup name :=
    ⟨rfl, rfl, rfl⟩
  have settled : ∀ name, Owed name m.history → owing = [] → name ∈ names := by
    rintro name owed rfl
    exact (h.owed name owed).resolve_right List.not_mem_nil
  refine Invariant.consistent (?_ : Invariant _ queue names busy items)
  refine ⟨h.sound.of_eq rfl rfl rfl, h.dispatching, ?_, ?_, fun batch mem => h.handed batch ?_⟩
  · cases h.phase with
    | idle eq _ =>
      cases eq.symm.trans foreign
      exact .outer rfl proper (.queuing (.entered rfl found apart))
    | waiting eq proper' stage =>
      cases eq.symm.trans foreign
      exact .inner rfl proper' stage proper (.queuing (.entered rfl found apart))
    | outer eq _ _ => cases eq.symm.trans foreign
    | inner eq _ _ _ _ => cases eq.symm.trans foreign
  · rintro name (mem | owed)
    · exact .inr mem
    · refine .inl (settled name owed ?_)
      cases h.phase with
      | idle _ _ => rfl
      | waiting _ _ _ => rfl
      | outer eq _ _ => cases eq.symm.trans foreign
      | inner eq _ _ _ _ => cases eq.symm.trans foreign
  · rcases List.mem_cons.1 mem with eq | mem
    · cases eq
    · exact mem

/-- Other code that was called comes to its end: the call below goes on, or gives up. -/
theorem Invariant.leave (h : Invariant m queue names busy owing) {below : List Frame}
    (foreign : m.frames = .foreign :: below) (called : below ≠ []) (completion : Completion) :
    Consistent (m.leave completion below) := by
  cases h.phase with
  | idle eq _ =>
    cases eq.symm.trans foreign
    exact absurd rfl called
  | outer eq _ _ => cases eq.symm.trans foreign
  | inner eq _ _ _ _ => cases eq.symm.trans foreign
  | waiting eq proper stage =>
    cases eq.symm.trans foreign
    cases completion with
    | returned => exact h.go proper (.resuming stage) (by simp)
    | thrown =>
      cases stage with
      | recomputing _ _ _ => exact h.go proper .failing (by simp)
      | updating => exact h.go proper .failing (by simp)

/-- Whatever other code does that is in control, the invariant is kept. -/
theorem Invariant.perform (h : Invariant m queue names busy owing) {below : List Frame}
    (foreign : m.frames = .foreign :: below) {action : Action} {m' : Machine}
    (performed : m.perform below action = some m') : Consistent m' := by
  have sound := h.sound
  cases action with
  | proceed => cases performed
  | create items =>
    cases performed
    have longer : m.arrays.length < (m.arrays ++ [items]).length := by simp
    exact h.meddle foreign ((sound.create items).share (Nat.ne_of_gt sound.lt_length) longer)
      rfl rfl rfl (Nat.le_of_lt longer)
  | write array items =>
    obtain ⟨reached, rfl⟩ :
        array ∈ m.shared ∧ { m with arrays := m.arrays.set array items } = m' := by
      simpa [Machine.perform] using performed
    have apart : array ≠ queue := by
      rintro rfl
      exact sound.hidden reached
    exact h.meddle foreign (sound.write apart items) rfl rfl rfl (Nat.le_of_eq List.length_set.symm)
  | mount mounted =>
    cases performed
    exact h.meddle foreign (sound.mount mounted) rfl rfl rfl (Nat.le_refl _)
  | notify array =>
    simp only [Machine.perform] at performed
    split at performed
    · rename_i reached
      split at performed
      · rename_i a items call found
        cases performed
        exact h.notify foreign reached found call
      · cases performed
    · cases performed
  | finish =>
    obtain ⟨called, rfl⟩ : below ≠ [] ∧ m.leave .returned below = m' := by
      simpa [Machine.perform] using performed
    exact h.leave foreign called .returned
  | throw =>
    obtain ⟨called, rfl⟩ : below ≠ [] ∧ m.leave .thrown below = m' := by
      simpa [Machine.perform] using performed
    exact h.leave foreign called .thrown

/-! ## Runs -/

/-- One step keeps the invariant. -/
theorem Consistent.step {m' : Machine} {action : Action} (h : Consistent m)
    (stepped : m.step action = some m') : Consistent m' := by
  obtain ⟨queue, names, busy, owing, h⟩ := h
  unfold Machine.step at stepped
  split at stepped
  · cases stepped
  · rename_i a below frames
    split at stepped
    · obtain ⟨next, eq, consistent⟩ := h.advance frames
      cases eq.symm.trans stepped
      exact consistent
    · cases stepped
  · rename_i below frames
    exact h.perform frames stepped

/-- Every step of a run keeps the invariant. -/
theorem Consistent.run {m' : Machine} {actions : List Action} (h : Consistent m)
    (ran : m.run actions = some m') : Consistent m' := by
  induction actions generalizing m with
  | nil =>
    cases ran
    exact h
  | cons action rest ih =>
    obtain ⟨next, stepped, ran⟩ := Option.bind_eq_some_iff.1 ran
    exact ih (h.step stepped) ran

/-! ## What other code can rely on -/

/-- Whether a task is a loop that is going on. -/
def Task.isLoop : Task → Bool
  | .statement (.loop _ _) => true
  | _ => false

/-- How many loops are going on in a call. -/
def Frame.loops : Frame → Nat
  | .code a => a.tasks.countP Task.isLoop
  | .foreign => 0

/-- How many loops are going on in all calls together. -/
def Machine.loops (m : Machine) : Nat := (m.frames.map Frame.loops).sum

/-- The names in the queue. -/
def Machine.pending? (m : Machine) : Option (List String) :=
  (m.array? (fun _ => none) (.identifier Vocabulary.pending)).map Prod.snd

theorem Waiting.loops {arrays : List (List String)} (stage : Waiting arrays queue locals tasks) :
    tasks.countP Task.isLoop = 1 := by
  cases stage <;> rfl

theorem Queuing.loops {arrays : List (List String)}
    (stage : Queuing arrays queue names locals tasks owing) : tasks.countP Task.isLoop = 0 := by
  cases stage <;> rfl

theorem Outer.loops_le {arrays : List (List String)}
    (stage : Outer arrays queue names busy locals tasks owing) : tasks.countP Task.isLoop ≤ 1 := by
  cases stage with
  | queuing stage => exact Nat.le_trans (Nat.le_of_eq stage.loops) (Nat.zero_le _)
  | resuming stage => exact Nat.le_of_eq stage.loops
  | _ => exact Nat.le_of_ble_eq_true rfl

theorem Inner.loops {arrays : List (List String)}
    (stage : Inner arrays queue names locals tasks owing) : tasks.countP Task.isLoop = 0 := by
  cases stage with
  | queuing stage => exact stage.loops
  | _ => rfl

theorem Phase.loops_le (phase : Phase m queue names busy owing) : m.loops ≤ 1 := by
  cases phase with
  | idle frames _ => simp [Machine.loops, frames, Frame.loops]
  | outer frames _ stage => simpa [Machine.loops, frames, Frame.loops] using stage.loops_le
  | waiting frames _ stage => simp [Machine.loops, frames, Frame.loops, stage.loops]
  | inner frames _ stage _ stage' =>
    simp [Machine.loops, frames, Frame.loops, stage.loops, stage'.loops]

theorem Queue.pending? (h : Queue m queue names) : m.pending? = some names := by
  have told : m.names (fun _ => none) Vocabulary.pending = some (.array queue) := by
    rw [names_of_none rfl, h.pending]
  rw [Machine.pending?, array?_identifier told h.items, Option.map_some]

/-- While other code is in control, no name is on its way from one place to another. -/
theorem Phase.owing_eq_nil (phase : Phase m queue names busy owing) {below : List Frame}
    (foreign : m.frames = .foreign :: below) : owing = [] := by
  cases phase with
  | idle _ _ => rfl
  | waiting _ _ _ => rfl
  | outer eq _ _ => cases eq.symm.trans foreign
  | inner eq _ _ _ _ => cases eq.symm.trans foreign

/-- Whether the queue is kept in order. -/
structure Orderly (m : Machine) : Prop where
  /-- At most one loop is draining the queue. -/
  single : m.loops ≤ 1
  /-- No generated code is stuck. -/
  proceeds : ∀ a below, m.frames = .code a :: below → (m.step .proceed).isSome
  /-- Whenever other code is in control, a name that it notified before has been handed to the
  reactive declarations since, or is in the queue. -/
  kept : ∀ below, m.frames = .foreign :: below →
    ∀ newer names older, m.history = newer ++ .called names :: older → ∀ name ∈ names,
      (∃ batch, .handed Vocabulary.recompute batch ∈ newer ∧ name ∈ batch) ∨
        ∃ queued, m.pending? = some queued ∧ name ∈ queued
  /-- A batch holds no name twice when it is handed over. -/
  distinct : ∀ batch, .handed Vocabulary.recompute batch ∈ m.history → batch.Nodup
  /-- The queue is empty when an outermost call has returned. -/
  drained : m.frames = [.foreign] → ∀ older, m.history = .ended .returned :: older →
    m.pending? = some []
  /-- No call is taken to be draining the queue when none is going on. -/
  released : m.frames = [.foreign] →
    m.globals Vocabulary.dispatching = some (.boolean false)

theorem Invariant.orderly (h : Invariant m queue names busy owing) : Orderly m where
  single := h.phase.loops_le
  proceeds a below frames := by
    obtain ⟨next, eq, -⟩ := h.advance frames
    simp [Machine.step, frames, eq]
  kept below foreign newer notified older split name mem := by
    by_cases queued : name ∈ names
    · exact .inr ⟨names, h.sound.pending?, queued⟩
    · have settled : ¬ Owed name m.history := by
        intro owed
        rcases h.owed name owed with mem | mem
        · exact queued mem
        · rw [h.phase.owing_eq_nil foreign] at mem
          cases mem
      exact .inl (exists_handed_of_not_owed mem (split ▸ settled))
  distinct := h.handed
  drained foreign older latest := by
    cases h.phase with
    | idle _ drained => rw [h.sound.pending?, drained older latest]
    | outer eq _ _ => cases eq.symm.trans foreign
    | waiting eq _ _ => cases eq.symm.trans foreign
    | inner eq _ _ _ _ => cases eq.symm.trans foreign
  released foreign := by
    rw [h.dispatching]
    cases h.phase with
    | idle _ _ => rfl
    | outer eq _ _ => cases eq.symm.trans foreign
    | waiting eq _ _ => cases eq.symm.trans foreign
    | inner eq _ _ _ _ => cases eq.symm.trans foreign

/-- Whether a module has been set up and nothing has happened since: the queue is new, and it is not
being drained. -/
structure Ready (m : Machine) : Prop where
  frames : m.frames = [.foreign]
  history : m.history = []
  queue : ∃ queue, Queue m queue []
  dispatching : m.globals Vocabulary.dispatching = some (.boolean false)

theorem Ready.consistent (h : Ready m) : Consistent m := by
  obtain ⟨queue, sound⟩ := h.queue
  refine Invariant.consistent (?_ : Invariant m queue [] false [])
  refine ⟨sound, h.dispatching, .idle h.frames fun _ _ => rfl, ?_, ?_⟩
  · rw [h.history]
    exact fun _ owed => owed.elim
  · rw [h.history]
    exact fun _ mem => absurd mem List.not_mem_nil

/-- The last statements that set up a module make it ready. -/
theorem ready_of_setUp (made : ∀ array ∈ m.shared, array < m.arrays.length)
    (mounted : ∃ mounted, m.globals Vocabulary.mounted = some (.boolean mounted)) :
    ∃ m', (m.go (fun _ => none) (statements [assignTo Vocabulary.pending (.array []),
        assignTo Vocabulary.dispatching (.boolean false)]) []).run [.proceed, .proceed] = some m' ∧
      Ready { m' with frames := [.foreign], history := [] } := by
  have sound := (Queue.new made mounted).mark false
  exact ⟨_, rfl, rfl, rfl, ⟨m.arrays.length, sound.of_eq rfl rfl rfl⟩, rfl⟩

/-- **The queue is kept in order.** Other code may call the function that notifies names whenever it
is in control, also while it runs for a batch; it may change a batch it was handed, and it may
throw. Whatever it does, at every point of every run at most one loop drains the queue, no name is
lost, no batch holds a name twice when it is handed over, the queue is empty when an outermost call
returns, and it does not count as being drained once an outermost call has ended. -/
theorem orderly_run {start : Machine} (ready : Ready start) (actions : List Action)
    (ran : start.run actions = some m) : Orderly m := by
  obtain ⟨queue, names, busy, owing, h⟩ := ready.consistent.run ran
  exact h.orderly

end

/-- A mounted component that has just been set up. -/
def fresh : Machine where
  globals := fun name =>
    if name = Vocabulary.pending then some (.array 0)
    else if name = Vocabulary.dispatching then some (.boolean false)
    else if name = Vocabulary.mounted then some (.boolean true)
    else none
  arrays := [[]]
  shared := []
  frames := [.foreign]
  history := []

/-- Two names are notified, one of them twice. The reactive declarations notify a third and add a
fourth to the batch; then the update of the document throws. -/
def turbulence : List Action :=
  [.create ["a", "b", "a"], .notify 1] ++ List.replicate 17 .proceed ++
  [.create ["c"], .notify 3] ++ List.replicate 8 .proceed ++
  [.write 0 ["a", "b", "d"], .finish, .proceed, .proceed, .throw, .proceed, .proceed]

theorem orderly_run_turbulence : ∃ m, fresh.run turbulence = some m ∧
    m.history = [.ended .thrown, .handed "$$lifecycle.update" ["a", "b", "d"], .ended .returned,
      .called ["c"], .handed "$$recompute" ["a", "b"], .called ["a", "b", "a"]] ∧
    m.pending? = some ["c"] ∧ Orderly m := by
  have ready : Ready fresh :=
    ⟨rfl, rfl, ⟨0, rfl, rfl, List.nodup_nil, List.not_mem_nil, by simp [fresh], true, rfl⟩, rfl⟩
  exact ⟨_, rfl, rfl, rfl, orderly_run ready turbulence rfl⟩

end ReactiveMarkup.Execution
