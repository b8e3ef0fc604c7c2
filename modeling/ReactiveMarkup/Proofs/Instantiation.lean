import ReactiveMarkup.Proofs.BindingNumber
import ReactiveMarkup.Proofs.Dispatching
import ReactiveMarkup.Proofs.RecomputationPass

/-!
# Setting up a component

The statements of a client module are run here from the first one until the factory returns. Script
code, that is the script itself and the bodies of the reactive declarations, is other code: nothing
is assumed about it but that it finishes. What it does that concerns the module is to notify names,
by itself or in functions that it calls; an oracle that is told all that has happened so far decides
which names.

Script code is told apart by the `Place` of the statement that it stands in. What runs and what is
notified is noted in a history that only the oracle reads.

While a component is set up, notified names are only queued, and the queue is thrown away at the
end, since each declaration runs once anyway. So a declaration is up to date if and only if neither
its own body nor one that runs after it notifies a name that it depends on (`upToDate_iff`).
-/

namespace ReactiveMarkup.Instantiation

open Emission (Statement Expression)
open Execution (Value Names)

/-! ## Running a factory -/

/-- The place of a statement: the function that it stands in, or none if it stands in the factory
itself, and its number there. -/
structure Place where
  function : Option String
  number : Nat
deriving DecidableEq, Repr

/-- What is noted of a run. -/
inductive Event
  /-- The script code at a place began to run. -/
  | began (place : Place)
  /-- The script code at a place notified some names. -/
  | notified (place : Place) (names : List String)
deriving DecidableEq, Repr

/-- The state of a run. -/
structure State where
  /-- The variables of the factory. -/
  globals : Names
  /-- The items of every array that has been made. -/
  arrays : List (List String)
  /-- What has happened so far, latest first. -/
  history : List Event

/-- How a statement ends. -/
structure Outcome where
  state : State
  /-- Whether the function that it stands in returns. -/
  returned : Bool

/-- The text that an expression is. -/
def text? : Expression → Option String
  | .text value => some value
  | _ => none

/-- Whether a test holds. -/
def holds? (names : Names) (arrays : List (List String)) : Expression → Option Bool
  | .binary left "||" right =>
    match holds? names arrays left with
    | some false => holds? names arrays right
    | decided => decided
  | .call (.member (.array items) "some") [.arrow [param] body] =>
    (items.mapM text?).bind
      (Recomputation.anyHolds fun value => holds? (names.bind param (.text value)) arrays body)
  | e =>
    match Execution.evaluate names arrays e with
    | some (.boolean value) => some value
    | _ => none
termination_by structural e => e

namespace State

/-- What the names stand for in a call: its own names hide those of the factory. -/
def names (s : State) (locals : Names) : Names := fun name => (locals name).or (s.globals name)

/-- The value of an expression; an array literal makes an array. -/
def value? (s : State) (locals : Names) : Expression → Option (Value × State)
  | .array items =>
    (items.mapM text?).map fun values =>
      (.array s.arrays.length, { s with arrays := s.arrays ++ [values] })
  | e => (Execution.evaluate (s.names locals) s.arrays e).map fun value => (value, s)

/-- The values of the arguments of a call. -/
def arguments? (s : State) (locals : Names) : List Expression → Option (List Value × State)
  | [] => some ([], s)
  | e :: rest =>
    (s.value? locals e).bind fun (value, s) =>
      (s.arguments? locals rest).map fun (values, s) => (value :: values, s)

/-- The array that an expression stands for, with its items. -/
def array? (s : State) (locals : Names) (e : Expression) : Option (Nat × List String) :=
  match Execution.evaluate (s.names locals) s.arrays e with
  | some (.array number) => s.arrays[number]?.map fun items => (number, items)
  | _ => none

/-- Gives a variable of the factory a value. -/
def assign (s : State) (name : String) (value : Value) : State :=
  { s with globals := s.globals.bind name value }

/-- Declares a variable without a value. -/
def declare (s : State) (name : String) : State :=
  { s with globals := fun other => if other = name then none else s.globals other }

/-- Notes an event. -/
def note (s : State) (event : Event) : State := { s with history := event :: s.history }

end State

/-- How calls of the functions of the factory change the state. -/
abbrev Call := String → List Value → State → Option State

section

variable (other : List Event → List (List String)) (call : Call)

/-- The script code at a place notifies names, list after list. -/
def notifyAll (place : Place) : List (List String) → State → Option State
  | [], s => some s
  | names :: rest, s =>
    (call Vocabulary.update [.array s.arrays.length]
      ({ s with arrays := s.arrays ++ [names] }.note (.notified place names))).bind
      (notifyAll place rest)

/-- The script code at a place runs. -/
def runScript (place : Place) (s : State) : Option State :=
  notifyAll call place (other (.began place :: s.history)) (s.note (.began place))

/-- Runs the body of a loop for the items of an array, which must not change meanwhile. -/
def iterate (array : Nat) (body : String → State → Option Outcome) :
    List String → State → Option Outcome
  | [], s => some ⟨s, false⟩
  | item :: rest, s =>
    match body item s with
    | some ⟨s', false⟩ =>
      if s'.arrays[array]? = s.arrays[array]? then iterate array body rest s' else none
    | ended => ended

mutual

/-- Runs a statement that belongs to a place. Functions are known from the start, and the methods of
an object are for later. -/
def execute (place : Place) (locals : Names) : Statement → State → Option Outcome
  | .declare name none, s => some ⟨s.declare name, false⟩
  | .declare name (some e), s =>
    (s.value? locals e).map fun (value, s) => ⟨s.assign name value, false⟩
  | .constant _ (.object _), s => some ⟨s, false⟩
  | .expression (.assign (.identifier name) e), s =>
    (s.value? locals e).map fun (value, s) => ⟨s.assign name value, false⟩
  | .expression (.call (.member object "push") [argument]), s =>
    match s.array? locals object, s.value? locals argument with
    | some (number, items), some (.text value, s) =>
      some ⟨{ s with arrays := s.arrays.set number (items ++ [value]) }, false⟩
    | _, _ => none
  | .expression (.call (.identifier function) arguments), s =>
    (s.arguments? locals arguments).bind fun (values, s) =>
      (call function values s).map fun s => ⟨s, false⟩
  | .guarded test body, s =>
    match holds? (s.names locals) s.arrays test with
    | some true => executeAll place locals body s
    | some false => some ⟨s, false⟩
    | none => none
  | .each binding iterable body, s =>
    (s.array? locals iterable).bind fun (number, items) =>
      iterate number
        (fun item s => executeAll place (locals.bind binding (.text item)) body s) items s
  | .function _ _ _, s => some ⟨s, false⟩
  | .result _, s => some ⟨s, true⟩
  | .verbatim code, s =>
    if code = "return;" then some ⟨s, true⟩
    else (runScript other call place s).map fun s => ⟨s, false⟩
  | _, _ => none
termination_by structural statement => statement

/-- Runs statements that belong to one place. -/
def executeAll (place : Place) (locals : Names) : List Statement → State → Option Outcome
  | [], s => some ⟨s, false⟩
  | statement :: rest, s =>
    match execute place locals statement s with
    | some ⟨s, false⟩ => executeAll place locals rest s
    | ended => ended
termination_by structural statements => statements

end

/-- Runs the statements of a function, or of the factory, that are numbered from `number` on. -/
def runFrom (function : Option String) (locals : Names) :
    Nat → List Statement → State → Option Outcome
  | _, [], s => some ⟨s, false⟩
  | number, statement :: rest, s =>
    match execute other call ⟨function, number⟩ locals statement s with
    | some ⟨s, false⟩ => runFrom function locals (number + 1) rest s
    | ended => ended

end

/-- The parameters and the statements of a function of the factory. -/
def function? (name : String) : Statement → Option (List String × List Statement)
  | .function own params body => if own = name then some (params, body) else none
  | _ => none

/-- The name of a parameter; a value that it takes when none is given may stand behind it. -/
def parameterName (param : String) : String :=
  String.ofList (param.toList.takeWhile fun c => c ≠ ' ')

/-- The names of a call: its parameters stand for its arguments. -/
def parameters (params : List String) (arguments : List Value) : Names := fun name =>
  ((params.map parameterName).zip arguments).lookup name

/-- Calls of the functions of a factory that are nested up to a depth. -/
def callWithin (other : List Event → List (List String)) (factory : List Statement) : Nat → Call
  | 0, _, _, _ => none
  | depth + 1, name, arguments, s =>
    (factory.findSome? (function? name)).bind fun (params, body) =>
      (runFrom other (callWithin other factory depth) (some name) (parameters params arguments) 0
        body s).map Outcome.state

/-- Runs a factory, with calls nested up to a depth. -/
def instantiate (other : List Event → List (List String)) (factory : List Statement) (depth : Nat) :
    Option Outcome :=
  runFrom other (callWithin other factory depth) none (fun _ => none) 0 factory
    ⟨fun _ => none, [], []⟩

/-! ## Queuing -/

/-- Whether notified names are only queued: there is a queue, and updates count as running. -/
structure Queuing (s : State) : Prop where
  pending : ∃ queue < s.arrays.length, s.globals Vocabulary.pending = some (.array queue)
  dispatching : s.globals Vocabulary.dispatching = some (.boolean true)

/-- What queuing leaves as it is. -/
structure Keeps (s s' : State) : Prop where
  globals : s'.globals = s.globals
  arrays : s.arrays.length ≤ s'.arrays.length

theorem Keeps.trans {s s' s'' : State} (h : Keeps s s') (h' : Keeps s' s'') : Keeps s s'' where
  globals := h'.globals.trans h.globals
  arrays := h.arrays.trans h'.arrays

theorem Queuing.of_keeps {s s' : State} (queuing : Queuing s) (keeps : Keeps s s') :
    Queuing s' where
  pending := by
    obtain ⟨queue, made, pending⟩ := queuing.pending
    exact ⟨queue, made.trans_le keeps.arrays, keeps.globals ▸ pending⟩
  dispatching := keeps.globals ▸ queuing.dispatching

/-- The state after an array has been given other items. -/
def State.rewrite (s : State) (array : Nat) (items : List String) : State :=
  { s with arrays := s.arrays.set array items }

theorem keeps_rewrite (s : State) (array : Nat) (items : List String) :
    Keeps s (s.rewrite array items) where
  globals := rfl
  arrays := by simp [State.rewrite]

@[simp] theorem rewrite_rewrite (s : State) (array : Nat) (items items' : List String) :
    (s.rewrite array items).rewrite array items' = s.rewrite array items' := by
  simp [State.rewrite]

theorem rewrite_self {s : State} {array : Nat} {items : List String}
    (found : s.arrays[array]? = some items) : s.rewrite array items = s := by
  obtain ⟨valid, rfl⟩ := List.getElem?_eq_some_iff.1 found
  simp [State.rewrite]

section

variable {other : List Event → List (List String)} {call : Call} {place : Place} {locals : Names}
  {s : State}

theorem executeAll_cons {statement : Statement} {rest : List Statement} {s' : State}
    (executed : execute other call place locals statement s = some ⟨s', false⟩) :
    executeAll other call place locals (statement :: rest) s =
      executeAll other call place locals rest s' := by
  rw [executeAll, executed]

theorem runFrom_cons {function : Option String} {number : Nat} {statement : Statement}
    {rest : List Statement} {s' : State}
    (executed : execute other call ⟨function, number⟩ locals statement s = some ⟨s', false⟩) :
    runFrom other call function locals number (statement :: rest) s =
      runFrom other call function locals (number + 1) rest s' := by
  rw [runFrom, executed]

theorem runFrom_append {function : Option String} {number : Nat} {first rest : List Statement}
    {s' : State} (ran : runFrom other call function locals number first s = some ⟨s', false⟩) :
    runFrom other call function locals number (first ++ rest) s =
      runFrom other call function locals (number + first.length) rest s' := by
  induction first generalizing number s with
  | nil =>
    cases ran
    rfl
  | cons statement first ih =>
    rw [runFrom] at ran
    split at ran
    · rename_i executed
      rw [List.cons_append, runFrom_cons executed, ih ran, List.length_cons, ← Nat.add_assoc,
        Nat.add_right_comm]
    · rename_i ended
      exact absurd ran (ended _)

variable (other) in
theorem callWithin_eq {factory : List Statement} {name : String} {params : List String}
    {body : List Statement} (defined : factory.findSome? (function? name) = some (params, body))
    (depth : Nat) (arguments : List Value) :
    callWithin other factory (depth + 1) name arguments s =
      (runFrom other (callWithin other factory depth) (some name) (parameters params arguments) 0
        body s).map Outcome.state := by
  rw [callWithin, defined, Option.bind_some]

section

variable (other call place)

/-- Offering a name to the queue writes to the queue at most. -/
theorem execute_offer {queue : Nat} {item : String} (made : queue < s.arrays.length)
    (pending : s.names locals Vocabulary.pending = some (.array queue))
    (own : s.names locals Vocabulary.name = some (.text item)) :
    ∃ items, execute other call place locals Execution.offer s =
      some ⟨s.rewrite queue items, false⟩ := by
  have found : s.arrays[queue]? = some s.arrays[queue] := List.getElem?_eq_getElem made
  by_cases mem : item ∈ s.arrays[queue]
  · refine ⟨s.arrays[queue], ?_⟩
    rw [rewrite_self found]
    simp [Execution.offer, execute, holds?, Execution.evaluate, Expression.callMethod, pending, own,
      found, mem]
  · refine ⟨s.arrays[queue] ++ [item], ?_⟩
    simp [Execution.offer, Execution.pushName, Client.invoke, execute, executeAll, holds?,
      Execution.evaluate, Expression.callMethod, pending, own, found, mem, State.array?,
      State.value?, State.rewrite]

/-- So does offering the names of another array, one after the other. -/
theorem iterate_offer {queue array : Nat} (made : queue < s.arrays.length) (ne : queue ≠ array)
    (free : locals Vocabulary.pending = none)
    (pending : s.globals Vocabulary.pending = some (.array queue)) (names : List String) :
    ∃ items, iterate array
        (fun item s => executeAll other call place (locals.bind Vocabulary.name (.text item))
          [Execution.offer] s) names s = some ⟨s.rewrite queue items, false⟩ := by
  induction names generalizing s with
  | nil => exact ⟨s.arrays[queue], by rw [rewrite_self (List.getElem?_eq_getElem made)]; rfl⟩
  | cons name rest ih =>
    have hidden : (locals.bind Vocabulary.name (.text name)) Vocabulary.pending = none := free
    have pending' : s.names (locals.bind Vocabulary.name (.text name)) Vocabulary.pending =
        some (.array queue) := by rw [State.names, hidden, Option.none_or, pending]
    have own : s.names (locals.bind Vocabulary.name (.text name)) Vocabulary.name =
        some (.text name) := by simp [State.names]
    obtain ⟨items, offered⟩ := execute_offer other call place made pending' own
    obtain ⟨items', iterated⟩ := ih (s := s.rewrite queue items)
      (made.trans_le (keeps_rewrite s queue items).arrays) pending
    refine ⟨items', ?_⟩
    have untouched : (s.rewrite queue items).arrays[array]? = s.arrays[array]? := by
      simp [State.rewrite, ne]
    rw [iterate, executeAll_cons offered, executeAll]
    simp only [if_pos untouched, iterated, rewrite_rewrite]

end

/-- Whether a call that notifies names only queues them. -/
def Queues (call : Call) : Prop :=
  ∀ s array, Queuing s → array < s.arrays.length →
    s.globals Vocabulary.pending ≠ some (.array array) →
    ∃ s', call Vocabulary.update [.array array] s = some s' ∧ Keeps s s' ∧ s'.history = s.history

variable (other) in
theorem queues_callWithin {factory : List Statement}
    (defined : factory.findSome? (function? Vocabulary.update) =
      some ([Vocabulary.changed],
        .each Vocabulary.name (.identifier Vocabulary.changed) [Execution.offer] ::
          Execution.afterQueuing)) (depth : Nat) :
    Queues (callWithin other factory (depth + 1)) := by
  intro s array queuing valid ne
  obtain ⟨queue, made, pending⟩ := queuing.pending
  have free : parameters [Vocabulary.changed] [.array array] Vocabulary.pending = none := rfl
  have told : parameters [Vocabulary.changed] [.array array] Vocabulary.changed =
    some (.array array) := rfl
  have busy : parameters [Vocabulary.changed] [.array array] Vocabulary.dispatching = none := rfl
  have distinct : queue ≠ array := by
    rintro rfl
    exact ne pending
  obtain ⟨items, iterated⟩ := iterate_offer other (callWithin other factory depth)
    ⟨some Vocabulary.update, 0⟩ made distinct free pending s.arrays[array]
  refine ⟨s.rewrite queue items, ?_, keeps_rewrite s queue items, rfl⟩
  -- the loop queues the names; then the function gives way, since the queue is being drained
  have offered : execute other (callWithin other factory depth) ⟨some Vocabulary.update, 0⟩
      (parameters [Vocabulary.changed] [.array array])
      (.each Vocabulary.name (.identifier Vocabulary.changed) [Execution.offer]) s =
        some ⟨s.rewrite queue items, false⟩ := by
    rw [execute]
    simp only [State.array?, Execution.evaluate, State.names, told, Option.some_or,
      List.getElem?_eq_getElem valid, Option.map_some, Option.bind_some, iterated]
  have still : (s.rewrite queue items).globals Vocabulary.dispatching = some (.boolean true) :=
    queuing.dispatching
  have left : execute other (callWithin other factory depth) ⟨some Vocabulary.update, 1⟩
      (parameters [Vocabulary.changed] [.array array]) Execution.giveWay (s.rewrite queue items) =
        some ⟨s.rewrite queue items, true⟩ := by
    simp [Execution.giveWay, execute, executeAll, holds?, Execution.evaluate, State.names, busy,
      still]
  rw [callWithin_eq other defined, runFrom_cons offered, Execution.afterQueuing, runFrom, left]
  rfl

/-! ## Script code -/

section

variable (other place)

/-- The script code at a place notifies some names. -/
theorem notifyAll_eq (queues : Queues call) (queuing : Queuing s) (notes : List (List String)) :
    ∃ s', notifyAll call place notes s = some s' ∧ Keeps s s' ∧
      s'.history = (notes.map (.notified place)).reverse ++ s.history := by
  induction notes generalizing s with
  | nil => exact ⟨s, rfl, ⟨rfl, Nat.le_refl _⟩, rfl⟩
  | cons names rest ih =>
    let told := { s with arrays := s.arrays ++ [names] }.note (.notified place names)
    have keeps : Keeps s told := ⟨rfl, by simp [told, State.note]⟩
    -- the array that is handed over is new, so it is not the queue
    have fresh : told.globals Vocabulary.pending ≠ some (.array s.arrays.length) := by
      obtain ⟨queue, made, pending⟩ := queuing.pending
      intro same
      rw [keeps.globals, pending] at same
      cases same
      exact Nat.lt_irrefl _ made
    obtain ⟨s', called, keeps', history'⟩ :=
      queues told s.arrays.length (queuing.of_keeps keeps) (by simp [told, State.note]) fresh
    obtain ⟨s'', notified, keeps'', history''⟩ := ih ((queuing.of_keeps keeps).of_keeps keeps')
    refine ⟨s'', ?_, (keeps.trans keeps').trans keeps'', ?_⟩
    · rw [notifyAll, called, Option.bind_some, notified]
    · simp [history'', history', told, State.note]

/-- Whether a history has become another one while the script code at a place ran. -/
def Adds (place : Place) (before after : List Event) : Prop :=
  ∃ notes : List (List String), after = notes.map (.notified place) ++ .began place :: before

theorem runScript_eq (queues : Queues call) (queuing : Queuing s) :
    ∃ s', runScript other call place s = some s' ∧ Keeps s s' ∧
      Adds place s.history s'.history := by
  have keeps : Keeps s (s.note (.began place)) := ⟨rfl, Nat.le_refl _⟩
  obtain ⟨s', notified, keeps', history⟩ :=
    notifyAll_eq place queues (queuing.of_keeps keeps) (other (.began place :: s.history))
  exact ⟨s', notified, keeps.trans keeps', _, by rw [history, ← List.map_reverse]; rfl⟩

end

/-- Printed statements do not read like the statement that returns. -/
theorem printStatements_ne (program : List Script.Statement) :
    Script.printStatements program ≠ "return;" := by
  cases program with
  | nil => decide
  | cons statement rest =>
    -- a statement is followed by the end of its line
    intro same
    have mem : '\n' ∈ (Script.printStatements (statement :: rest)).toList := by
      simp [Script.printStatements, Script.Statement.printLines]
    rw [same] at mem
    revert mem
    decide

section

variable (other place)

variable (locals) in
theorem execute_verbatim (queues : Queues call) (queuing : Queuing s)
    (program : List Script.Statement) :
    ∃ s', execute other call place locals (.verbatim (Script.printStatements program)) s =
        some ⟨s', false⟩ ∧ Keeps s s' ∧ Adds place s.history s'.history := by
  obtain ⟨s', ran, keeps, adds⟩ := runScript_eq other place queues queuing
  refine ⟨s', ?_, keeps, adds⟩
  rw [execute, if_neg (printStatements_ne program), ran, Option.map_some]

/-! ## The first run of the reactive declarations -/

variable (call) in
/-- Adding what a declaration assigns to the changed names writes to their array at most. -/
theorem executeAll_push {array : Nat} (told : locals Vocabulary.changed = some (.array array))
    (made : array < s.arrays.length) (names : List String) :
    ∃ items, executeAll other call place locals (names.map fun name =>
        .expression (.callMethod (.identifier Vocabulary.changed) "push" [.text name])) s =
      some ⟨s.rewrite array items, false⟩ := by
  induction names generalizing s with
  | nil => exact ⟨s.arrays[array], by rw [rewrite_self (List.getElem?_eq_getElem made)]; rfl⟩
  | cons name rest ih =>
    have pushed : execute other call place locals
        (.expression (.callMethod (.identifier Vocabulary.changed) "push" [.text name])) s =
          some ⟨s.rewrite array (s.arrays[array] ++ [name]), false⟩ := by
      simp [Expression.callMethod, execute, State.array?, State.value?, Execution.evaluate,
        State.names, told, List.getElem?_eq_getElem made, State.rewrite]
    obtain ⟨items, rest⟩ := ih (made.trans_le (keeps_rewrite s array _).arrays)
    exact ⟨items, by rw [List.map_cons, executeAll_cons pushed, rest, rewrite_rewrite]⟩

theorem holds?_test_initial {names : Names} {arrays : List (List String)}
    (initial : names Vocabulary.initial = some (.boolean true)) (d : ReactiveDeclaration) :
    holds? names arrays (d.test Vocabulary.changed) = some true := by
  unfold ReactiveDeclaration.test
  split
  · simp [holds?, Execution.evaluate, initial]
  · simp [holds?, Execution.evaluate, initial]

/-- The first time, a declaration runs whatever it depends on. -/
theorem execute_guarded (queues : Queues call) (queuing : Queuing s) {array : Nat}
    (told : locals Vocabulary.changed = some (.array array)) (made : array < s.arrays.length)
    (initial : locals Vocabulary.initial = some (.boolean true)) (d : ReactiveDeclaration) :
    ∃ s', execute other call place locals (d.guarded Vocabulary.changed) s = some ⟨s', false⟩ ∧
      Keeps s s' ∧ Adds place s.history s'.history := by
  obtain ⟨s', ran, keeps, adds⟩ := execute_verbatim other place locals queues queuing [d.body]
  obtain ⟨items, pushed⟩ :=
    executeAll_push other call place told (made.trans_le keeps.arrays) d.assignees
  refine ⟨s'.rewrite array items, ?_, keeps.trans (keeps_rewrite s' array items), adds⟩
  rw [ReactiveDeclaration.guarded, execute,
    holds?_test_initial (by rw [State.names, initial, Option.some_or])]
  exact (executeAll_cons ran).trans pushed

end

/-- The place of the body of the declaration at a position. -/
def bodyPlace (position : Nat) : Place := ⟨some Vocabulary.recompute, position⟩

/-- Whether a history has become another one while the declarations from one position up to another
ran, each of them once and in order. -/
inductive Pass : Nat → Nat → List Event → List Event → Prop
  | done {n : Nat} {history : List Event} : Pass n n history history
  | next {m n : Nat} {before middle after : List Event}
    (adds : Adds (bodyPlace m) before middle) (rest : Pass (m + 1) n middle after) :
    Pass m n before after

variable (other) in
theorem runFrom_guarded (queues : Queues call) (queuing : Queuing s) {array : Nat}
    (told : locals Vocabulary.changed = some (.array array)) (made : array < s.arrays.length)
    (initial : locals Vocabulary.initial = some (.boolean true))
    (declarations : List ReactiveDeclaration) (position : Nat) :
    ∃ s', runFrom other call (some Vocabulary.recompute) locals position
        (declarations.map (·.guarded Vocabulary.changed)) s = some ⟨s', false⟩ ∧
      Keeps s s' ∧ Pass position (position + declarations.length) s.history s'.history := by
  induction declarations generalizing s position with
  | nil => exact ⟨s, rfl, ⟨rfl, Nat.le_refl _⟩, .done⟩
  | cons d rest ih =>
    obtain ⟨s', ran, keeps, adds⟩ :=
      execute_guarded other (bodyPlace position) queues queuing told made initial d
    obtain ⟨s'', ran', keeps', pass⟩ :=
      ih (queuing.of_keeps keeps) (made.trans_le keeps.arrays) (position + 1)
    refine ⟨s'', by rw [List.map_cons, runFrom_cons ran, ran'], keeps.trans keeps', .next adds ?_⟩
    rwa [List.length_cons, ← Nat.add_assoc, Nat.add_right_comm]

end

/-! ## What is up to date -/

/-- The place that an event is about. -/
def Event.place : Event → Place
  | .began place | .notified place _ => place

/-- Whether the declaration at a position has run since a name was last notified. -/
def UpToDate (history : List Event) (position : Nat) (name : String) : Prop :=
  ∃ newer older, history = newer ++ .began (bodyPlace position) :: older ∧
    ∀ place names, .notified place names ∈ newer → name ∉ names

/-- Whether a declaration that ran at a position, or one behind it, notified a name. -/
def NotifiedFrom (history : List Event) (position : Nat) (name : String) : Prop :=
  ∃ later ≥ position, ∃ names, .notified (bodyPlace later) names ∈ history ∧ name ∈ names

/-- A history in which the declaration at a position began to run once: the events of that
declaration and of those behind it are the newer ones. -/
structure Divided (history : List Event) (position : Nat) (newer older : List Event) : Prop where
  eq : history = newer ++ .began (bodyPlace position) :: older
  newer : ∀ event ∈ newer,
    event ≠ .began (bodyPlace position) ∧ ∃ later ≥ position, event.place = bodyPlace later
  older : ∀ event ∈ older, ∀ later ≥ position, event.place ≠ bodyPlace later

theorem Divided.upToDate_iff_silent {history newer older : List Event} {position : Nat}
    (divided : Divided history position newer older) (name : String) :
    UpToDate history position name ↔ ¬ NotifiedFrom history position name := by
  constructor
  · rintro ⟨newer', older', eq, silent⟩ ⟨later, ge, names, mem, notified⟩
    have absent : Event.began (bodyPlace position) ∉ newer :=
      fun mem => (divided.newer _ mem).1 rfl
    have absent' : Event.began (bodyPlace position) ∉ older :=
      fun mem => divided.older _ mem position (Nat.le_refl _) rfl
    -- the declaration began only once, so both divisions are the same
    obtain ⟨rfl, -, -⟩ :=
      (List.append_cons_inj_of_notMem absent absent').1 (divided.eq.symm.trans eq)
    rw [divided.eq] at mem
    rcases List.mem_append.1 mem with mem | mem
    · exact silent _ _ mem notified
    · rcases List.mem_cons.1 mem with same | mem
      · cases same
      · exact divided.older _ mem later ge rfl
  · intro silent
    refine ⟨newer, older, divided.eq, fun place names mem notified => silent ?_⟩
    obtain ⟨-, later, ge, rfl⟩ := divided.newer _ mem
    exact ⟨later, ge, names, divided.eq ▸ List.mem_append_left _ mem, notified⟩

theorem Adds.place_eq {place : Place} {before after : List Event} (adds : Adds place before after)
    {event : Event} (mem : event ∈ after) : event.place = place ∨ event ∈ before := by
  obtain ⟨notes, rfl⟩ := adds
  simp only [List.mem_append, List.mem_map, List.mem_cons] at mem
  rcases mem with ⟨names, -, rfl⟩ | rfl | mem
  · exact .inl rfl
  · exact .inl rfl
  · exact .inr mem

theorem bodyPlace_inj {position position' : Nat} (eq : bodyPlace position = bodyPlace position') :
    position = position' := congrArg Place.number eq

namespace Pass

variable {m n : Nat} {before after : List Event}

/-- A pass only adds to the history. -/
theorem exists_newer (pass : Pass m n before after) :
    ∃ newer, after = newer ++ before ∧
      ∀ event ∈ newer, ∃ later ≥ m, event.place = bodyPlace later := by
  induction pass with
  | done => exact ⟨[], rfl, by simp⟩
  | @next m n before middle after adds _ ih =>
    obtain ⟨newer, rfl, late⟩ := ih
    obtain ⟨notes, rfl⟩ := adds
    refine ⟨newer ++ (notes.map (.notified (bodyPlace m)) ++ [.began (bodyPlace m)]), by simp, ?_⟩
    intro event mem
    simp only [List.mem_append, List.mem_map, List.mem_singleton] at mem
    rcases mem with mem | ⟨names, -, rfl⟩ | rfl
    · obtain ⟨later, ge, eq⟩ := late event mem
      exact ⟨later, Nat.le_of_succ_le ge, eq⟩
    · exact ⟨m, Nat.le_refl m, rfl⟩
    · exact ⟨m, Nat.le_refl m, rfl⟩

/-- A pass divides the history at each declaration that it runs. -/
theorem divided (pass : Pass m n before after)
    (early : ∀ event ∈ before, ∀ later ≥ m, event.place ≠ bodyPlace later) {position : Nat}
    (ge : m ≤ position) (lt : position < n) :
    ∃ newer older, Divided after position newer older := by
  induction pass with
  | done => omega
  | @next m n before middle after adds rest ih =>
    -- either the pass runs the declaration now, and what is newer comes from later ones, or it
    -- runs it later
    rcases Nat.eq_or_lt_of_le ge with rfl | gt
    · obtain ⟨newer, rfl, late⟩ := rest.exists_newer
      obtain ⟨notes, rfl⟩ := adds
      refine ⟨newer ++ notes.map (.notified (bodyPlace m)), before, by simp, ?_, early⟩
      intro event mem
      rcases List.mem_append.1 mem with mem | mem
      · obtain ⟨later, gt, eq⟩ := late event mem
        refine ⟨?_, later, Nat.le_of_succ_le gt, eq⟩
        rintro rfl
        exact absurd (bodyPlace_inj eq) (by omega)
      · obtain ⟨names, -, rfl⟩ := List.mem_map.1 mem
        exact ⟨by simp, m, Nat.le_refl m, rfl⟩
    · refine ih ?_ gt lt
      intro event mem later later_gt same
      rcases adds.place_eq mem with eq | mem
      · exact absurd (bodyPlace_inj (eq.symm.trans same)) (by omega)
      · exact early event mem later (Nat.le_of_succ_le later_gt) same

end Pass

/-! ## The factory of a component -/

section

variable (name : String)

theorem function?_undeclaredBindings (a : Analysis) :
    (undeclaredBindings a).findSome? (function? name) = none := by
  simp [undeclaredBindings, List.findSome?_eq_none_iff, function?]

theorem function?_stateBindings (draft : Client.Draft) :
    (Client.stateBindings draft).findSome? (function? name) = none := by
  simp [Client.stateBindings, List.findSome?_eq_none_iff, function?]

theorem function?_embedScript (script : List Script.Statement) :
    (embedScript script).findSome? (function? name) = none := by
  unfold embedScript
  dsimp only
  split <;> rfl

end

section

variable (component : Component) (analysis : Analysis) (options : Options)

theorem findSome?_update :
    (Client.generate component analysis options).code.body.findSome? (function? Vocabulary.update) =
      some ([Vocabulary.changed],
        .each Vocabulary.name (.identifier Vocabulary.changed) [Execution.offer] ::
          Execution.afterQueuing) := by
  simp only [Client.generate, List.findSome?_append, function?_undeclaredBindings,
    function?_stateBindings, function?_embedScript, Option.none_or]
  rfl

theorem findSome?_recompute :
    (Client.generate component analysis options).code.body.findSome?
        (function? Vocabulary.recompute) =
      some ([Vocabulary.changed, Vocabulary.initial ++ " = false"],
        guardedRecomputation analysis Vocabulary.changed) := by
  simp only [Client.generate, List.findSome?_append, function?_undeclaredBindings,
    function?_stateBindings, function?_embedScript, Option.none_or]
  rfl

end

section

variable (other : List Event → List (List String)) (locals : Names) (number : Nat)

section

variable (call : Call) (s : State)

/-- Declaring names without a value changes nothing but them. -/
theorem runFrom_declare (names : List String) :
    ∃ s', runFrom other call none locals number (names.map (.declare · none)) s =
        some ⟨s', false⟩ ∧
      s'.arrays = s.arrays ∧ s'.history = s.history ∧
      ∀ name ∉ names, s'.globals name = s.globals name := by
  induction names generalizing number s with
  | nil => exact ⟨s, rfl, rfl, rfl, fun _ _ => rfl⟩
  | cons name rest ih =>
    obtain ⟨s', ran, arrays, history, kept⟩ := ih (number + 1) (s.declare name)
    refine ⟨s', ?_, arrays, history, fun other absent => ?_⟩
    · rw [List.map_cons, runFrom_cons (by rw [execute]), ran]
    · rw [List.mem_cons, not_or] at absent
      rw [kept other absent.2]
      exact if_neg absent.1

/-- Once the variables of a module are declared, notified names are queued. -/
theorem runFrom_stateBindings (options : Options) (analysis : Analysis) (html : List Fragment) :
    ∃ s', runFrom other call none (fun _ => none) number
        (Client.stateBindings (Client.documentDraft options analysis html)) s =
          some ⟨s', false⟩ ∧
      Queuing s' ∧ s'.history = s.history := by
  let made : State := { s with arrays := s.arrays ++ [[]] }
  let start := ((made.assign Vocabulary.pending (.array s.arrays.length)).assign
    Vocabulary.dispatching (.boolean true)).assign Vocabulary.mounted (.boolean false)
  obtain ⟨s', ran, arrays, history, kept⟩ := runFrom_declare other (fun _ => none) (number + 3)
    call start (Client.documentDraft options analysis html).bindings
  refine ⟨s', ?_, ⟨⟨s.arrays.length, ?_, ?_⟩, ?_⟩, history⟩
  · have own : runFrom other call none (fun _ => none) number
        [.declare Vocabulary.pending (some (.array [])),
          .declare Vocabulary.dispatching (some (.boolean true)),
          .declare Vocabulary.mounted (some (.boolean false))] s = some ⟨start, false⟩ := rfl
    rw [Client.stateBindings, runFrom_append own]
    exact ran
  · rw [arrays]
    simp [start, made, State.assign]
  · rw [kept _ (Client.not_mem_bindings options analysis (by decide) html)]
    rfl
  · rw [kept _ (Client.not_mem_bindings options analysis (by decide) html)]
    rfl

end

/-- The script runs in the factory itself. -/
theorem runFrom_embedScript {call : Call} {s : State} (queues : Queues call) (queuing : Queuing s)
    (script : List Script.Statement) :
    ∃ s', runFrom other call none locals number (embedScript script) s = some ⟨s', false⟩ ∧
      Keeps s s' ∧ ∀ event ∈ s'.history, event.place.function = none ∨ event ∈ s.history := by
  unfold embedScript
  dsimp only
  split
  · exact ⟨s, rfl, ⟨rfl, Nat.le_refl _⟩, fun event mem => .inr mem⟩
  · obtain ⟨s', ran, keeps, adds⟩ :=
      execute_verbatim other ⟨none, number⟩ locals queues queuing script
    refine ⟨s', by rw [runFrom_cons ran, runFrom], keeps, fun event mem => ?_⟩
    exact (adds.place_eq mem).imp_left fun eq => by rw [eq]

end

section

variable (other : List Event → List (List String)) (component : Component) (analysis : Analysis)
  (options : Options)

theorem runFrom_firstRecomputation (depth : Nat) {number : Nat} {s : State} (queuing : Queuing s) :
    ∃ s', runFrom other
        (callWithin other (Client.generate component analysis options).code.body (depth + 2)) none
        (fun _ => none) number (Client.firstRecomputation analysis) s = some ⟨s', false⟩ ∧
      Keeps s s' ∧ Pass 0 analysis.declarations.length s.history s'.history := by
  unfold Client.firstRecomputation
  split
  · rename_i empty
    rw [List.isEmpty_iff.1 empty]
    exact ⟨s, rfl, ⟨rfl, Nat.le_refl _⟩, .done⟩
  · let told : State := { s with arrays := s.arrays ++ [[]] }
    have keeps : Keeps s told := ⟨rfl, by simp [told]⟩
    have own : parameters [Vocabulary.changed, Vocabulary.initial ++ " = false"]
        [.array s.arrays.length, .boolean true] Vocabulary.changed =
          some (.array s.arrays.length) := rfl
    have initial : parameters [Vocabulary.changed, Vocabulary.initial ++ " = false"]
        [.array s.arrays.length, .boolean true] Vocabulary.initial = some (.boolean true) := by rfl
    obtain ⟨s', ran, keeps', pass⟩ := runFrom_guarded other
      (queues_callWithin other (findSome?_update component analysis options) depth)
      (queuing.of_keeps keeps) own (by simp [told]) initial analysis.declarations 0
    rw [Nat.zero_add] at pass
    refine ⟨s', ?_, keeps.trans keeps', pass⟩
    -- the first call says that it is the initial one, so every guard lets its declaration run
    have called := callWithin_eq other (s := told)
      (findSome?_recompute component analysis options) (depth + 1)
      [.array s.arrays.length, .boolean true]
    rw [guardedRecomputation, ran, Option.map_some] at called
    have executed : execute other
        (callWithin other (Client.generate component analysis options).code.body (depth + 2))
        ⟨none, number⟩ (fun _ => none)
        (.expression (.call (.identifier Vocabulary.recompute) [.array [], .boolean true])) s =
          some ⟨s', false⟩ := by
      simp [execute, State.arguments?, State.value?, Execution.evaluate, told, called]
    rw [runFrom_cons executed, runFrom]

/-- The queue is thrown away, and updates are allowed from then on. -/
theorem runFrom_release (call : Call) (number : Nat) (s : State) (methods : List Emission.Method) :
    ∃ s', runFrom other call none (fun _ => none) number
        [Client.assignTo Vocabulary.pending (.array []),
          Client.assignTo Vocabulary.dispatching (.boolean false),
          .constant Vocabulary.lifecycle (.object methods),
          .result (.identifier Vocabulary.lifecycle)] s = some ⟨s', true⟩ ∧
      (s'.array? (fun _ => none) (.identifier Vocabulary.pending)).map Prod.snd = some [] ∧
      s'.globals Vocabulary.dispatching = some (.boolean false) ∧ s'.history = s.history := by
  refine ⟨_, rfl, ?_, rfl, rfl⟩
  simp [State.array?, Execution.evaluate, State.names, State.assign, Execution.Names.bind,
    Vocabulary.pending, Vocabulary.dispatching]

/-- A factory returns; the script runs in it first, then each declaration once. -/
theorem instantiate_generate (depth : Nat) :
    ∃ s script, instantiate other (Client.generate component analysis options).code.body
        (depth + 2) = some ⟨s, true⟩ ∧
      (s.array? (fun _ => none) (.identifier Vocabulary.pending)).map Prod.snd = some [] ∧
      s.globals Vocabulary.dispatching = some (.boolean false) ∧
      Pass 0 analysis.declarations.length script s.history ∧
      ∀ event ∈ script, event.place.function = none := by
  have queues :=
    queues_callWithin other (findSome?_update component analysis options) (depth + 1)
  have first := @runFrom_firstRecomputation other component analysis options depth
  rw [instantiate]
  -- what follows needs of the calls only that notified names are queued
  generalize callWithin other (Client.generate component analysis options).code.body (depth + 2) =
    call at queues first
  obtain ⟨s₁, declared, -, history₁, -⟩ := runFrom_declare other (fun _ => none) 0 call
    ⟨fun _ => none, [], []⟩ analysis.undeclaredAssignees
  obtain ⟨s₂, bound, queuing, history₂⟩ :=
    runFrom_stateBindings other _ call s₁ options analysis component.html
  obtain ⟨s₃, scripted, keeps, places⟩ := runFrom_embedScript other (fun _ => none) _ queues queuing
    (Client.notifyScript analysis component.script)
  obtain ⟨s₄, computed, -, pass⟩ := first (queuing.of_keeps keeps)
  obtain ⟨s₅, released, emptied, allowed, history₅⟩ := runFrom_release other call _ s₄ _
  refine ⟨s₅, s₃.history, ?_, emptied, allowed, history₅ ▸ pass, ?_⟩
  · simp only [Client.generate, List.append_assoc]
    rw [undeclaredBindings, runFrom_append declared, runFrom_append bound, runFrom_append scripted,
      List.cons_append, runFrom_cons rfl, List.cons_append, runFrom_cons rfl, List.nil_append,
      runFrom_append computed]
    exact released
  · intro event mem
    refine (places event mem).resolve_right ?_
    rw [history₂, history₁]
    exact List.not_mem_nil

/-- **What the first run of the declarations makes up for**: however the script and the reactive
declarations notify names while a component is set up, the factory returns, and leaves an empty
queue and updates allowed; then a declaration has run since a name was last notified if and only if
neither that declaration nor one that ran behind it notified the name. -/
theorem upToDate_iff (depth : Nat) :
    ∃ s, instantiate other (Client.generate component analysis options).code.body (depth + 2) =
        some ⟨s, true⟩ ∧
      (s.array? (fun _ => none) (.identifier Vocabulary.pending)).map Prod.snd = some [] ∧
      s.globals Vocabulary.dispatching = some (.boolean false) ∧
      ∀ position < analysis.declarations.length, ∀ name,
        UpToDate s.history position name ↔ ¬ NotifiedFrom s.history position name := by
  obtain ⟨s, script, ran, emptied, released, pass, outside⟩ :=
    instantiate_generate other component analysis options depth
  refine ⟨s, ran, emptied, released, fun position lt name => ?_⟩
  have early : ∀ event ∈ script, ∀ later ≥ 0, event.place ≠ bodyPlace later := by
    intro event mem later _ same
    have := outside event mem
    rw [same] at this
    cases this
  obtain ⟨newer, older, divided⟩ := pass.divided early (Nat.zero_le position) lt
  exact divided.upToDate_iff_silent name

end

/-- A declaration, and behind it one that calls a function which changes what the first one depends
on. -/
def lateMutation : Component where
  html := [.expression (.identifier "b"), .expression (.identifier "c")]
  script :=
    [.declaration .lexical [⟨.identifier "a", some (.verbatim "0" [])⟩],
      .function ⟨0, ⟨some "bump", false, false, false, [], []⟩,
        .block [.expression (.assignment "=" (.identifier "a") (.verbatim "1" []))]⟩,
      .labeled "$" (.expression (.assignment "=" (.identifier "b") (.identifier "a"))),
      .labeled "$" (.expression (.assignment "=" (.identifier "c")
        (.call (.identifier "bump") [] false)))]

/-- What the script code of `lateMutation` notifies: running the second declaration changes `a`. -/
def lateMutationNotes (history : List Event) : List (List String) :=
  if history.head? = some (.began (bodyPlace 1)) then [["a"]] else []

/-- A declaration can be left out of date: `b` depends on `a`, is computed first, and is not
computed again when the second declaration has changed `a`. -/
theorem stale_lateMutation :
    Script.printStatements (Client.notifyScript (lateMutation.analyze "on:").analysis
        (lateMutation.analyze "on:").component.script) =
      "let a = 0;\nfunction bump() \x7b\n  (a = 1, $$update([\"a\"]));\n\x7d\n" ∧
    (lateMutation.analyze "on:").analysis.declarations.map
        (fun d => (d.body.print, d.dependencies)) =
      [("b = a;\n", ["a"]), ("c = bump();\n", ["bump"])] ∧
    ∃ s, instantiate lateMutationNotes
        (Client.generate (lateMutation.analyze "on:").component
          (lateMutation.analyze "on:").analysis {}).code.body 2 = some ⟨s, true⟩ ∧
      ¬ UpToDate s.history 0 "a" := by
  refine ⟨by decide +kernel, by decide +kernel, ?_⟩
  have ran : (instantiate lateMutationNotes
      (Client.generate (lateMutation.analyze "on:").component
        (lateMutation.analyze "on:").analysis {}).code.body 2).map
          (fun outcome => (outcome.state.history, outcome.returned)) =
      some ([.notified (bodyPlace 1) ["a"], .began (bodyPlace 1), .began (bodyPlace 0),
        .began ⟨none, 7⟩], true) := by decide +kernel
  obtain ⟨⟨s, returned⟩, outcome, eq⟩ := Option.map_eq_some_iff.1 ran
  obtain ⟨history, rfl⟩ := Prod.mk.inj eq
  refine ⟨s, outcome, ?_⟩
  rw [history]
  rintro ⟨newer, older, eq, silent⟩
  -- the last event notifies `a`, so the body did not begin after it
  cases newer with
  | nil => cases eq
  | cons event newer =>
    obtain rfl := (List.cons.inj eq).1
    exact silent _ _ List.mem_cons_self List.mem_cons_self

end ReactiveMarkup.Instantiation
