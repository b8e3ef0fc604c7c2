import ReactiveMarkup.Reactivity.Analysis

/-!
# Elision of unused functions

A server module leaves out top-level functions that nothing can call while it renders: handlers
matter in the browser only. A function is needed if its name is reachable from what the top level,
the rendered markup or a reactive declaration reads.
-/

namespace ReactiveMarkup.Server

open Script (Expression Statement Declarator)

/-- What the top level of a script reads. -/
structure TopLevel where
  /-- What is read as the script runs. -/
  eager : List String
  /-- The names of top-level functions, each with what its body reads. -/
  functions : List (String × List String)

namespace TopLevel

/-- Nothing. -/
def empty : TopLevel := ⟨[], []⟩

/-- Two parts of a top level in order. -/
def append (x y : TopLevel) : TopLevel := ⟨x.eager ++ y.eager, x.functions ++ y.functions⟩

instance : Append TopLevel := ⟨append⟩

/-- What a binding reads. -/
def ofDeclarator : Declarator → TopLevel
  | ⟨_, none⟩ => empty
  | ⟨pattern, some init⟩ =>
    if init.isFunction then ⟨[], pattern.names.map (·, init.references)⟩
    else ⟨init.references, []⟩

/-- What a top-level statement reads. -/
def ofStatement : Statement → TopLevel
  | .declaration _ declarators => declarators.foldl (fun t d => t ++ ofDeclarator d) empty
  | .function f => ⟨[], f.signature.name.toList.map (·, f.references)⟩
  | s => ⟨s.references, []⟩

/-- What a script reads. -/
def ofScript (script : List Statement) : TopLevel :=
  script.foldl (fun t s => t ++ ofStatement s) empty

end TopLevel

/-- Adds what the functions in the set read, each in turn. -/
def reachStep (functions : List (String × List String)) (needed : NameSet) : NameSet :=
  functions.foldl
    (fun names f => if names.contains f.1 then names.insertAll f.2 else names) needed

/-- Repeats `reachStep` until nothing is added, at most `fuel` times. -/
def reachWithin (functions : List (String × List String)) : Nat → NameSet → NameSet
  | 0, needed => needed
  | fuel + 1, needed =>
    let more := reachStep functions needed
    if more.size = needed.size then more else reachWithin functions fuel more

/-- The names that rendering can reach. Every repetition but the last reaches a function for the
first time, so there are at most as many as functions, and one more. -/
def reachableNames (script : List Statement) (analysis : Analysis) : NameSet :=
  let top := TopLevel.ofScript script
  let start := ((NameSet.ofList top.eager).insertAll analysis.usedInTemplate.toList).insertAll
    (analysis.declarations.flatMap fun d => d.body.references)
  reachWithin top.functions (top.functions.length + 1) start

/-- Whether a binding is kept: it is no function, or one of its names is needed. -/
def isKept (needed : NameSet) (d : Declarator) : Bool :=
  !(d.init.any Expression.isFunction) || d.pattern.names.any needed.contains

/-- A statement without the bindings that are left out; none if it has no other. -/
def elideStatement (needed : NameSet) : Statement → Option Statement
  | .declaration kind declarators =>
    match declarators.filter (isKept needed) with
    | [] => none
    | d :: kept => some (.declaration kind (d :: kept))
  | s => some s

/-- A script without the functions that rendering cannot reach. -/
def elideUnused (script : List Statement) (analysis : Analysis) : List Statement :=
  script.filterMap (elideStatement (reachableNames script analysis))

end ReactiveMarkup.Server
