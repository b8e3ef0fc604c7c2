import ReactiveMarkup.Emission.Tree
import ReactiveMarkup.Markup.Fragment
import ReactiveMarkup.Script.Printer

/-!
# What is generated from a component

A generated module with the places of its rendered nodes, and how script code enters it.
-/

namespace ReactiveMarkup

/-- A generated module. -/
structure Generated where
  code : Emission.Module
  /-- The places of the rendered nodes, in source order. -/
  hydration : List HydrationSlot

/-- A script expression as part of a generated module. A sequence is put between parentheses, so
that it stays one argument. -/
def embed : Script.Expression → Emission.Expression
  | .sequence items => .verbatim ("(" ++ (Script.Expression.sequence items).print ++ ")")
  | e => .verbatim e.print

/-- A script as part of a generated module; nothing if it prints nothing. -/
def embedScript (script : List Script.Statement) : List Emission.Statement :=
  let printed := Script.printStatements script
  if printed.isEmpty then [] else [.verbatim printed]

end ReactiveMarkup
