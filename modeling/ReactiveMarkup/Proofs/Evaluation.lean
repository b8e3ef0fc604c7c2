import ReactiveMarkup.Client.Notification
import ReactiveMarkup.Proofs.Position

/-!
# Evaluation of scripts

A big-step semantics of scripts that gives every construct its meaning from the meanings of its
parts, and that is otherwise left open (`Semantics`). Expressions evaluate in an environment and
change a store; they end with a value or abruptly, or do not end. What is fixed is what rewriting
relies on: a sequence evaluates its expressions from left to right and has the value of the last, an
expression statement has no use for the value, and a notification yields `undefined` and changes
nothing.

The value of a function may depend on the meaning of its body, not on its text: otherwise no
rewriting of functions would keep values.
-/

namespace ReactiveMarkup

open Script (DeclarationKind Pattern Signature Expression Target Function Body Statement Declarator
  Node)

/-- A big-step relation: from an environment and a store to a value, or an abrupt end, and another
store. -/
def Evaluation (Env Store Stop Value : Type) : Type :=
  Env → Store → Except Stop Value → Store → Prop

namespace Evaluation

variable {Env Store Stop Value Value' : Type}

/-- Yields a value and leaves the store as it is. -/
def yields (value : Value) : Evaluation Env Store Stop Value := fun _ store outcome store' =>
  outcome = .ok value ∧ store' = store

/-- Evaluates an expression, then, unless that ends abruptly, what depends on its value. -/
def bind (first : Evaluation Env Store Stop Value)
    (next : Value → Evaluation Env Store Stop Value') : Evaluation Env Store Stop Value' :=
  fun env store outcome store' =>
    (∃ value middle, first env store (.ok value) middle ∧ next value env middle outcome store') ∨
      ∃ stop, outcome = .error stop ∧ first env store (.error stop) store'

/-- Evaluates one expression, then, unless that ends abruptly, another. -/
def andThen (first : Evaluation Env Store Stop Value)
    (second : Evaluation Env Store Stop Value') : Evaluation Env Store Stop Value' :=
  first.bind fun _ => second

/-- Evaluates expressions from left to right, with the value of the last. -/
def inOrder (none : Value) :
    List (Evaluation Env Store Stop Value) → Evaluation Env Store Stop Value
  | [] => yields none
  | [last] => last
  | first :: rest => first.andThen (inOrder none rest)

/-- An evaluation whose value is dropped. -/
def effect (e : Evaluation Env Store Stop Value) : Evaluation Env Store Stop Unit :=
  e.andThen (yields ())

theorem effect_ok {e : Evaluation Env Store Stop Value} {env : Env} {store store' : Store} :
    e.effect env store (.ok ()) store' ↔ ∃ value, e env store (.ok value) store' := by
  simp [effect, andThen, bind, yields]

theorem effect_error {e : Evaluation Env Store Stop Value} {env : Env} {store store' : Store}
    {stop : Stop} : e.effect env store (.error stop) store' ↔ e env store (.error stop) store' := by
  simp [effect, andThen, bind, yields]

@[ext] theorem ext {e e' : Evaluation Env Store Stop Value}
    (h : ∀ env store outcome store', e env store outcome store' ↔ e' env store outcome store') :
    e = e' := by
  funext env store outcome store'
  exact propext (h env store outcome store')

/-- What comes first matters by its effect only. -/
theorem andThen_effect (first : Evaluation Env Store Stop Value)
    (second : Evaluation Env Store Stop Value') :
    first.effect.andThen second = first.andThen second := by
  ext env store outcome store'
  constructor
  · rintro (⟨⟨⟩, middle, done, next⟩ | ⟨stop, rfl, stopped⟩)
    · obtain ⟨value, done⟩ := effect_ok.1 done
      exact .inl ⟨value, middle, done, next⟩
    · exact .inr ⟨stop, rfl, effect_error.1 stopped⟩
  · rintro (⟨value, middle, done, next⟩ | ⟨stop, rfl, stopped⟩)
    · exact .inl ⟨(), middle, effect_ok.2 ⟨value, done⟩, next⟩
    · exact .inr ⟨stop, rfl, effect_error.2 stopped⟩

/-- The effect of two evaluations in order is that of their effects. -/
theorem effect_andThen (first : Evaluation Env Store Stop Value)
    (second : Evaluation Env Store Stop Value') :
    (first.andThen second).effect = first.andThen second.effect := by
  ext env store outcome store'
  -- both sides end in the same three ways: `first` stops, `second` stops, or neither
  constructor
  · rintro (⟨value, middle, ⟨value', middle', done, next⟩ | ⟨stop, eq, stopped⟩, last⟩ |
      ⟨stop, rfl, ⟨value', middle', done, next⟩ | ⟨stop', eq, stopped⟩⟩)
    · exact .inl ⟨value', middle', done, .inl ⟨value, middle, next, last⟩⟩
    · cases eq
    · exact .inl ⟨value', middle', done, effect_error.2 next⟩
    · cases eq
      exact .inr ⟨stop, rfl, stopped⟩
  · rintro (⟨value, middle, done, ⟨value', middle', next, last⟩ | ⟨stop, rfl, stopped⟩⟩ |
      ⟨stop, rfl, stopped⟩)
    · exact .inl ⟨value', middle', .inl ⟨value, middle, done, next⟩, last⟩
    · exact .inr ⟨stop, rfl, .inl ⟨value, middle, done, stopped⟩⟩
    · exact .inr ⟨stop, rfl, .inr ⟨stop, rfl, stopped⟩⟩

theorem effect_yields (value : Value) :
    (yields value : Evaluation Env Store Stop Value).effect = yields () := by
  ext env store outcome store'
  simp only [effect, andThen, bind, yields, Except.ok.injEq, reduceCtorEq, false_and, and_false,
    exists_false, or_false]
  constructor
  · rintro ⟨_, _, ⟨rfl, rfl⟩, done⟩
    exact done
  · intro done
    exact ⟨value, store, ⟨rfl, rfl⟩, done⟩

/-- Nothing is lost of an effect when a value is put in the place of its own. -/
theorem effect_andThen_yields (e : Evaluation Env Store Stop Value) (value : Value') :
    (e.andThen (yields value)).effect = e.effect := by
  rw [effect_andThen, effect_yields]
  rfl

end Evaluation

/-- A compositional big-step semantics of scripts. -/
structure Semantics where
  Env : Type
  Store : Type
  /-- How an evaluation ends abruptly. -/
  Stop : Type
  Value : Type
  /-- What a target stands for. -/
  Place : Type
  /-- What a function stands for. -/
  Code : Type
  /-- What a statement stands for. -/
  Command : Type
  undefined : Value
  identifier : String → Evaluation Env Store Stop Value
  binary : Evaluation Env Store Stop Value → String → Evaluation Env Store Stop Value →
    Evaluation Env Store Stop Value
  assignment : String → Place → Evaluation Env Store Stop Value →
    Evaluation Env Store Stop Value
  update : String → Bool → Place → Evaluation Env Store Stop Value
  call : Evaluation Env Store Stop Value → List (Evaluation Env Store Stop Value) → Bool →
    Evaluation Env Store Stop Value
  member : Evaluation Env Store Stop Value → String → Bool → Evaluation Env Store Stop Value
  parenthesized : Evaluation Env Store Stop Value → Evaluation Env Store Stop Value
  closure : Code → Evaluation Env Store Stop Value
  verbatim : String → List String → Evaluation Env Store Stop Value
  namedPlace : String → Place
  memberPlace : Evaluation Env Store Stop Value → String → Place
  verbatimPlace : String → List String → Place
  blockCode : Nat → Signature → List Command → Code
  expressionCode : Nat → Signature → Evaluation Env Store Stop Value → Code
  declaration : DeclarationKind → List (Pattern × Option (Evaluation Env Store Stop Value)) →
    Command
  functionDeclaration : Code → Command
  /-- The value of an expression statement is dropped. -/
  expressionStatement : Evaluation Env Store Stop Unit → Command
  block : Nat → List Command → Command
  conditional : Evaluation Env Store Stop Value → Command → Option Command → Command
  result : Option (Evaluation Env Store Stop Value) → Command
  labeled : String → Command → Command
  verbatimStatement : String → List String → Command
  /-- Parentheses change no effect. -/
  effect_parenthesized : ∀ e : Evaluation Env Store Stop Value, (parenthesized e).effect = e.effect
  /-- Parentheses leave `undefined` as it is. -/
  parenthesized_undefined : ∀ e : Evaluation Env Store Stop Value,
    parenthesized (e.andThen (.yields undefined)) = e.andThen (.yields undefined)
  /-- A notification yields `undefined` and changes nothing. -/
  call_update : ∀ names : List String,
    call (identifier Vocabulary.update)
        [verbatim ("[" ++ Text.commaSeparated (names.map Emission.quote) ++ "]") []] false =
      .yields undefined

namespace Semantics

variable (S : Semantics)

/-- The evaluation of an expression. -/
abbrev Eval : Type := Evaluation S.Env S.Store S.Stop S.Value

mutual

/-- The meaning of an expression. -/
def expression : Expression → S.Eval
  | .identifier name => S.identifier name
  | .binary left operator right => S.binary (expression left) operator (expression right)
  | .assignment operator target right => S.assignment operator (place target) (expression right)
  | .update operator leading target => S.update operator leading (place target)
  | .call callee arguments optional =>
    S.call (expression callee) (expressions arguments) optional
  | .member object property optional => S.member (expression object) property optional
  | .parenthesized inner => S.parenthesized (expression inner)
  | .sequence items => Evaluation.inOrder S.undefined (expressions items)
  | .function f => S.closure (function f)
  | .verbatim source references => S.verbatim source references
termination_by structural e => e

/-- The meanings of some expressions. -/
def expressions : List Expression → List S.Eval
  | [] => []
  | e :: rest => expression e :: expressions rest
termination_by structural es => es

/-- The meaning of a target. -/
def place : Target → S.Place
  | .identifier name => S.namedPlace name
  | .member object property => S.memberPlace (expression object) property
  | .verbatim source names => S.verbatimPlace source names
termination_by structural t => t

/-- The meaning of a function. -/
def function : Function → S.Code
  | ⟨id, signature, .block body⟩ => S.blockCode id signature (statements body)
  | ⟨id, signature, .expression value⟩ => S.expressionCode id signature (expression value)
termination_by structural f => f

/-- The meaning of a statement. -/
def statement : Statement → S.Command
  | .declaration kind items => S.declaration kind (declarators items)
  | .function f => S.functionDeclaration (function f)
  | .expression e => S.expressionStatement (expression e).effect
  | .block id body => S.block id (statements body)
  | .conditional test consequent none =>
    S.conditional (expression test) (statement consequent) none
  | .conditional test consequent (some alternate) =>
    S.conditional (expression test) (statement consequent) (some (statement alternate))
  | .result none => S.result none
  | .result (some value) => S.result (some (expression value))
  | .labeled label body => S.labeled label (statement body)
  | .verbatim source references => S.verbatimStatement source references
termination_by structural s => s

/-- The meanings of some statements. -/
def statements : List Statement → List S.Command
  | [] => []
  | s :: rest => statement s :: statements rest
termination_by structural ss => ss

/-- The meanings of some bindings. -/
def declarators : List Declarator → List (Pattern × Option S.Eval)
  | [] => []
  | ⟨pattern, none⟩ :: rest => (pattern, none) :: declarators rest
  | ⟨pattern, some init⟩ :: rest => (pattern, some (expression init)) :: declarators rest
termination_by structural ds => ds

end

/-- The meaning of a binding. -/
def declarator (d : Declarator) : Pattern × Option S.Eval :=
  (d.pattern, d.init.map S.expression)

@[simp] theorem expressions_eq (es : List Expression) :
    S.expressions es = es.map S.expression := by
  induction es with
  | nil => rfl
  | cons e rest ih => rw [expressions, ih, List.map_cons]

@[simp] theorem statements_eq (ss : List Statement) : S.statements ss = ss.map S.statement := by
  induction ss with
  | nil => rfl
  | cons s rest ih => rw [statements, ih, List.map_cons]

@[simp] theorem declarators_eq (ds : List Declarator) :
    S.declarators ds = ds.map S.declarator := by
  induction ds with
  | nil => rfl
  | cons d rest ih =>
    obtain ⟨pattern, init⟩ := d
    cases init <;> rw [declarators, ih, List.map_cons] <;> rfl

/-- A mutation with its notification has the effect of the mutation and the value `undefined`. -/
theorem expression_notified (m : Expression) (names : List String) :
    S.expression (Client.notified m names) =
      (S.expression m).andThen (.yields S.undefined) := by
  have call : S.expression (Client.notification names) = .yields S.undefined := S.call_update names
  calc S.expression (Client.notified m names)
    _ = S.parenthesized ((S.expression m).andThen (S.expression (Client.notification names))) := rfl
    _ = S.parenthesized ((S.expression m).andThen (.yields S.undefined)) := by rw [call]
    _ = (S.expression m).andThen (.yields S.undefined) := S.parenthesized_undefined _

/-! ## A semantics of integer variables -/

/-- Values that may be `undefined` (`none`), under an operator. -/
def arithmetic (operator : String) (left right : Option Int) : Option Int :=
  match operator, left, right with
  | "+", some a, some b => some (a + b)
  | "-", some a, some b => some (a - b)
  | _, _, _ => none

/-- Changes the value of a variable and yields one that depends on the old and the new one. -/
def write (place : Option String) (change : Option Int → Option Int)
    (result : Option Int → Option Int → Option Int) :
    Evaluation Unit (String → Option Int) Empty (Option Int) := fun _ store outcome store' =>
  let old := place.bind store
  outcome = .ok (result old (change old)) ∧
    store' = fun name => if some name = place then change old else store name

/-- Integer variables with assignments, updates, sums and conditions; functions are not called. -/
def integers : Semantics where
  Env := Unit
  Store := String → Option Int
  Stop := Empty
  Value := Option Int
  Place := Option String
  Code := Unit
  Command := Evaluation Unit (String → Option Int) Empty Unit
  undefined := none
  identifier name := fun _ store outcome store' => outcome = .ok (store name) ∧ store' = store
  binary left operator right := left.bind fun a => right.bind fun b =>
    .yields (arithmetic operator a b)
  assignment operator place right := right.bind fun value =>
    match operator with
    | "=" => write place (fun _ => value) fun _ new => new
    | "+=" => write place (fun old => arithmetic "+" old value) fun _ new => new
    | "-=" => write place (fun old => arithmetic "-" old value) fun _ new => new
    | _ => .yields none
  update operator leading place :=
    write place (fun old => arithmetic (if operator = "++" then "+" else "-") old (some 1))
      fun old new => if leading then new else old
  call _ _ _ := .yields none
  member object _ _ := object.bind fun _ => .yields none
  parenthesized e := e
  closure _ := .yields none
  verbatim source _ := .yields source.toInt?
  namedPlace := some
  memberPlace _ _ := none
  verbatimPlace _ _ := none
  blockCode _ _ _ := ()
  expressionCode _ _ _ := ()
  declaration _ items := items.foldr
    (fun (pattern, init) rest =>
      ((init.getD (.yields none)).bind fun value =>
        write pattern.names.head? (fun _ => value) fun _ new => new).andThen rest) (.yields ())
  functionDeclaration _ := .yields ()
  expressionStatement e := e
  block _ body := body.foldr .andThen (.yields ())
  conditional test consequent alternate := test.bind fun value =>
    if value.all (· = 0) then alternate.getD (.yields ()) else consequent
  result value := (value.getD (.yields none)).effect
  labeled _ body := body
  verbatimStatement _ _ := .yields ()
  effect_parenthesized _ := rfl
  parenthesized_undefined _ := rfl
  call_update _ := rfl

end Semantics

end ReactiveMarkup
