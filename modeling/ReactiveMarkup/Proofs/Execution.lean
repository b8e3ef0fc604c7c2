import ReactiveMarkup.Client.Module

/-!
# Running generated code among other code

The statements of a generated module are run here one small step at a time. A `Machine` holds the
variables of the module, the arrays that have been made, and the calls that are going on, innermost
first. A call is either an activation of generated code, with the tasks that are left of it, or
other code: the script of the component, its reactive declarations, and whatever calls the module.

Nothing is assumed about other code but what it can reach. While it is in control it may make
arrays, write to arrays that it made or was handed, mount or unmount the component, call the
function that notifies names, and finish or throw. Generated code has no choice: its next step
follows from its tasks.

Calls, and the arrays handed over, are noted in a history that nothing reads.
-/

namespace ReactiveMarkup.Execution

open Emission (Statement Expression)

/-! ## Values -/

/-- A value of generated code. -/
inductive Value
  | boolean (value : Bool)
  | number (value : Nat)
  | text (value : String)
  /-- An array, by its number among all arrays that have been made. -/
  | array (number : Nat)
deriving DecidableEq, Repr

/-- What some names stand for. -/
abbrev Names := String → Option Value

/-- The names after one of them has been given a value. -/
def Names.bind (names : Names) (name : String) (value : Value) : Names := fun other =>
  if other = name then some value else names other

@[simp] theorem Names.bind_self (names : Names) (name : String) (value : Value) :
    names.bind name value name = some value := if_pos rfl

/-- The value of an expression that changes nothing, given the items of the arrays. -/
def evaluate (names : Names) (arrays : List (List String)) : Expression → Option Value
  | .identifier name => names name
  | .boolean value => some (.boolean value)
  | .number value => some (.number value)
  | .text value => some (.text value)
  | .member object "length" =>
    match evaluate names arrays object with
    | some (.array number) => arrays[number]?.map fun items => .number items.length
    | _ => none
  | .binary left ">" right =>
    match evaluate names arrays left, evaluate names arrays right with
    | some (.number m), some (.number n) => some (.boolean (decide (n < m)))
    | _, _ => none
  | .unary "!" operand =>
    match evaluate names arrays operand with
    | some (.boolean value) => some (.boolean !value)
    | _ => none
  | .call (.member object "includes") [argument] =>
    match evaluate names arrays object, evaluate names arrays argument with
    | some (.array number), some (.text value) =>
      arrays[number]?.map fun items => .boolean (decide (value ∈ items))
    | _, _ => none
  | _ => none
termination_by structural e => e

/-! ## Machines -/

/-- How a call ends before its last statement, or other code ends. -/
inductive Completion
  | returned
  | thrown
deriving DecidableEq, Repr

/-- What is left to do in a call. -/
inductive Task
  | statement (statement : Statement)
  /-- A loop over an array that has come to the given index. -/
  | iterate (binding : String) (array index : Nat) (body : List Statement)
  /-- What to do when the tasks before it are done, or are given up. -/
  | finalize (finalizer : List Statement)
  /-- Goes on to give up the tasks behind it. -/
  | complete (completion : Completion)

/-- The tasks of some statements. -/
def statements (body : List Statement) : List Task := body.map .statement

/-- The tasks that are left when some tasks are given up: from the first finalizer on. -/
def giveUp (completion : Completion) : List Task → List Task
  | [] => [.complete completion]
  | .finalize finalizer :: tasks => statements finalizer ++ .complete completion :: tasks
  | _ :: tasks => giveUp completion tasks

/-- A call of a function of generated code. -/
structure Activation where
  /-- Its parameters and constants. -/
  locals : Names
  tasks : List Task

/-- A call that is going on. -/
inductive Frame
  | code (activation : Activation)
  /-- Other code, about which nothing is known. -/
  | foreign

/-- What is noted of a run. -/
inductive Event
  /-- The function that notifies names was called with an array of these names. -/
  | called (names : List String)
  /-- Other code was called under the given name, with an array of these names. -/
  | handed (function : String) (names : List String)
  /-- A call of generated code has ended. -/
  | ended (completion : Completion)
deriving DecidableEq, Repr

/-- The state of a run. -/
structure Machine where
  /-- The variables of the module. -/
  globals : Names
  /-- The items of every array that has been made. -/
  arrays : List (List String)
  /-- The arrays that other code has got hold of. -/
  shared : List Nat
  /-- The calls that are going on, innermost first. -/
  frames : List Frame
  /-- What has happened so far, latest first. -/
  history : List Event

namespace Machine

/-- What the names stand for in a call: its own names hide those of the module. -/
def names (m : Machine) (locals : Names) : Names := fun name => (locals name).or (m.globals name)

/-- The value of an expression in a call. -/
def value? (m : Machine) (locals : Names) (e : Expression) : Option Value :=
  evaluate (m.names locals) m.arrays e

/-- The truth of a test in a call. -/
def truth? (m : Machine) (locals : Names) (e : Expression) : Option Bool :=
  match m.value? locals e with
  | some (.boolean value) => some value
  | _ => none

/-- The array that an expression stands for in a call, with its items. -/
def array? (m : Machine) (locals : Names) (e : Expression) : Option (Nat × List String) :=
  match m.value? locals e with
  | some (.array number) => m.arrays[number]?.map fun items => (number, items)
  | _ => none

/-- The innermost call goes on with some tasks. -/
def go (m : Machine) (locals : Names) (tasks : List Task) (below : List Frame) : Machine :=
  { m with frames := .code ⟨locals, tasks⟩ :: below }

/-- Gives a variable a value; one of the call itself if it has one of that name. -/
def assign (m : Machine) (locals : Names) (name : String) (value : Value) (tasks : List Task)
    (below : List Frame) : Machine :=
  match locals name with
  | some _ => m.go (locals.bind name value) tasks below
  | none => { m with globals := m.globals.bind name value }.go locals tasks below

/-- The name under which a function is called. -/
def functionName? : Expression → Option String
  | .identifier name => some name
  | .member (.identifier object) method => some (object ++ "." ++ method)
  | _ => none

/-- Calls other code with an array. -/
def handOver (m : Machine) (function : String) (array : Nat) (items : List String)
    (frames : List Frame) : Machine :=
  { m with
    shared := array :: m.shared
    frames := .foreign :: frames
    history := .handed function items :: m.history }

/-- Runs an expression for its effect. -/
def effect (m : Machine) (locals : Names) (tasks : List Task) (below : List Frame) :
    Expression → Option Machine
  | .assign (.identifier name) (.array []) =>
    some ({ m with arrays := m.arrays ++ [[]] }.assign locals name (.array m.arrays.length) tasks
      below)
  | .assign (.identifier name) e =>
    (m.value? locals e).map fun value => m.assign locals name value tasks below
  | .call (.member object "push") [argument] =>
    match m.array? locals object, m.value? locals argument with
    | some (number, items), some (.text value) =>
      some ({ m with arrays := m.arrays.set number (items ++ [value]) }.go locals tasks below)
    | _, _ => none
  | .call function [argument] =>
    match functionName? function, m.array? locals argument with
    | some name, some (number, items) =>
      some (m.handOver name number items (.code ⟨locals, tasks⟩ :: below))
    | _, _ => none
  | _ => none

/-- Runs a statement, with some tasks behind it. -/
def execute (m : Machine) (locals : Names) (tasks : List Task) (below : List Frame) :
    Statement → Option Machine
  | .constant name e =>
    (m.value? locals e).map fun value => m.go (locals.bind name value) tasks below
  | .expression e => m.effect locals tasks below e
  | .guarded test body =>
    (m.truth? locals test).map fun holds =>
      m.go locals (if holds then statements body ++ tasks else tasks) below
  | .loop test body =>
    (m.truth? locals test).map fun holds =>
      m.go locals
        (if holds then statements body ++ .statement (.loop test body) :: tasks else tasks) below
  | .each binding iterable body =>
    (m.array? locals iterable).map fun array =>
      m.go locals (.iterate binding array.1 0 body :: tasks) below
  | .ensured body finalizer =>
    some (m.go locals (statements body ++ .finalize finalizer :: tasks) below)
  | .verbatim code =>
    if code = "return;" then some (m.go locals (giveUp .returned tasks) below)
    else some { m with frames := .foreign :: .code ⟨locals, tasks⟩ :: below }
  | _ => none

/-- A call of generated code ends. What is thrown makes generated code below give up its tasks. -/
def leave (m : Machine) (completion : Completion) (below : List Frame) : Machine :=
  { m with
    frames :=
      match completion, below with
      | .thrown, .code ⟨locals, tasks⟩ :: rest => .code ⟨locals, giveUp .thrown tasks⟩ :: rest
      | _, below => below }

/-- Notes an event. -/
def note (m : Machine) (event : Event) : Machine := { m with history := event :: m.history }

/-- The next step of generated code that is in control. -/
def advance (m : Machine) (a : Activation) (below : List Frame) : Option Machine :=
  match a.tasks with
  | [] => some ((m.leave .returned below).note (.ended .returned))
  | .statement s :: tasks => m.execute a.locals tasks below s
  | .iterate binding array index body :: tasks =>
    m.arrays[array]?.map fun items =>
      match items[index]? with
      | none => m.go a.locals tasks below
      | some item =>
        m.go (a.locals.bind binding (.text item))
          (statements body ++ .iterate binding array (index + 1) body :: tasks) below
  | .finalize finalizer :: tasks => some (m.go a.locals (statements finalizer ++ tasks) below)
  | .complete completion :: [] => some ((m.leave completion below).note (.ended completion))
  | .complete completion :: task :: tasks =>
    some (m.go a.locals (giveUp completion (task :: tasks)) below)

end Machine

/-! ## Other code -/

/-- What happens next in a run. -/
inductive Action
  /-- Generated code takes its next step. -/
  | proceed
  /-- Other code makes an array. -/
  | create (items : List String)
  /-- Other code changes the items of an array. -/
  | write (array : Nat) (items : List String)
  /-- Other code mounts or unmounts the component. -/
  | mount (mounted : Bool)
  /-- Other code calls the function that notifies names. -/
  | notify (array : Nat)
  /-- Other code that was called finishes. -/
  | finish
  /-- Other code that was called throws. -/
  | throw
deriving DecidableEq, Repr

/-- The activation of a function with its arguments. -/
def activation? (arguments : List Value) : Statement → Option Activation
  | .function _ params body =>
    some ⟨fun name => (params.zip arguments).lookup name, statements body⟩
  | _ => none

namespace Machine

/-- What other code does that is in control; it reaches no array that it did not get hold of. -/
def perform (m : Machine) (below : List Frame) : Action → Option Machine
  | .create items =>
    some { m with arrays := m.arrays ++ [items], shared := m.arrays.length :: m.shared }
  | .write array items =>
    if array ∈ m.shared then some { m with arrays := m.arrays.set array items } else none
  | .mount mounted =>
    some { m with globals := m.globals.bind Vocabulary.mounted (.boolean mounted) }
  | .notify array =>
    if array ∈ m.shared then
      match activation? [.array array] Client.dispatcher, m.arrays[array]? with
      | some activation, some items =>
        some ({ m with frames := .code activation :: .foreign :: below }.note (.called items))
      | _, _ => none
    else none
  | .finish => if below.isEmpty then none else some (m.leave .returned below)
  | .throw => if below.isEmpty then none else some (m.leave .thrown below)
  | .proceed => none

/-- One step of a run. -/
def step (m : Machine) (action : Action) : Option Machine :=
  match m.frames with
  | [] => none
  | .code a :: below => if action = .proceed then m.advance a below else none
  | .foreign :: below => m.perform below action

/-- Some steps of a run. -/
def run (m : Machine) : List Action → Option Machine
  | [] => some m
  | action :: rest => (m.step action).bind (·.run rest)

end Machine

end ReactiveMarkup.Execution
