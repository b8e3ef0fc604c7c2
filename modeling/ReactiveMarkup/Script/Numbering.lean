import ReactiveMarkup.Script.Tree

/-!
# Numbering of nodes

Functions and blocks get their node ids in source order, outer ones before inner ones, from a
counter that all scripts of a component share. The counter is a natural number that stands for one
of 32 bits, so what is proved of ids is about fewer nodes than 2 ^ 32.
-/

namespace ReactiveMarkup.Script

mutual

/-- Numbers the nodes of an expression from `next` on. -/
def Expression.number (next : Nat) : Expression → Expression × Nat
  | .identifier name => (.identifier name, next)
  | .binary left operator right =>
    let left := left.number next
    let right := right.number left.2
    (.binary left.1 operator right.1, right.2)
  | .assignment operator target right =>
    let target := target.number next
    let right := right.number target.2
    (.assignment operator target.1 right.1, right.2)
  | .update operator leading target =>
    let target := target.number next
    (.update operator leading target.1, target.2)
  | .call callee arguments optional =>
    let callee := callee.number next
    let arguments := Expression.numberAll callee.2 arguments
    (.call callee.1 arguments.1 optional, arguments.2)
  | .member object property optional =>
    let object := object.number next
    (.member object.1 property optional, object.2)
  | .parenthesized inner =>
    let inner := inner.number next
    (.parenthesized inner.1, inner.2)
  | .sequence items =>
    let items := Expression.numberAll next items
    (.sequence items.1, items.2)
  | .function f =>
    let f := f.number next
    (.function f.1, f.2)
  | .verbatim source references => (.verbatim source references, next)
termination_by structural e => e

/-- Numbers the nodes of some expressions. -/
def Expression.numberAll (next : Nat) : List Expression → List Expression × Nat
  | [] => ([], next)
  | e :: rest =>
    let e := e.number next
    let rest := Expression.numberAll e.2 rest
    (e.1 :: rest.1, rest.2)
termination_by structural es => es

/-- Numbers the nodes of a target. -/
def Target.number (next : Nat) : Target → Target × Nat
  | .identifier name => (.identifier name, next)
  | .member object property =>
    let object := object.number next
    (.member object.1 property, object.2)
  | .verbatim source names => (.verbatim source names, next)
termination_by structural t => t

/-- Numbers a function, then the nodes of its body. -/
def Function.number (next : Nat) : Function → Function × Nat
  | ⟨_, signature, .block body⟩ =>
    let body := Statement.numberAll (next + 1) body
    (⟨next, signature, .block body.1⟩, body.2)
  | ⟨_, signature, .expression value⟩ =>
    let value := value.number (next + 1)
    (⟨next, signature, .expression value.1⟩, value.2)
termination_by structural f => f

/-- Numbers the nodes of a statement. -/
def Statement.number (next : Nat) : Statement → Statement × Nat
  | .declaration kind items =>
    let items := Declarator.numberAll next items
    (.declaration kind items.1, items.2)
  | .function f =>
    let f := f.number next
    (.function f.1, f.2)
  | .expression e =>
    let e := e.number next
    (.expression e.1, e.2)
  | .block _ body =>
    let body := Statement.numberAll (next + 1) body
    (.block next body.1, body.2)
  | .conditional test consequent none =>
    let test := test.number next
    let consequent := consequent.number test.2
    (.conditional test.1 consequent.1 none, consequent.2)
  | .conditional test consequent (some alternate) =>
    let test := test.number next
    let consequent := consequent.number test.2
    let alternate := alternate.number consequent.2
    (.conditional test.1 consequent.1 (some alternate.1), alternate.2)
  | .result none => (.result none, next)
  | .result (some value) =>
    let value := value.number next
    (.result (some value.1), value.2)
  | .labeled label body =>
    let body := body.number next
    (.labeled label body.1, body.2)
  | .verbatim source references => (.verbatim source references, next)
termination_by structural s => s

/-- Numbers the nodes of some statements. -/
def Statement.numberAll (next : Nat) : List Statement → List Statement × Nat
  | [] => ([], next)
  | s :: rest =>
    let s := s.number next
    let rest := Statement.numberAll s.2 rest
    (s.1 :: rest.1, rest.2)
termination_by structural ss => ss

/-- Numbers the nodes of some bindings. -/
def Declarator.numberAll (next : Nat) : List Declarator → List Declarator × Nat
  | [] => ([], next)
  | ⟨pattern, none⟩ :: rest =>
    let rest := Declarator.numberAll next rest
    (⟨pattern, none⟩ :: rest.1, rest.2)
  | ⟨pattern, some init⟩ :: rest =>
    let init := init.number next
    let rest := Declarator.numberAll init.2 rest
    (⟨pattern, some init.1⟩ :: rest.1, rest.2)
termination_by structural ds => ds

end

end ReactiveMarkup.Script
