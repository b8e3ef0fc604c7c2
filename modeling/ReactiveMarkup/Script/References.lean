import ReactiveMarkup.Script.Tree

/-!
# The names that a script reads

`Expression.references` lists the names that an expression reads, in order of first appearance. A
function contributes what it reads from outside: the names in its body that are neither its
parameters nor declared anywhere in the body. A plain assignment does not read the name that it
writes.
-/

namespace ReactiveMarkup.Script

/-- The names that a piece of script reads, and those that it declares itself. -/
structure Usage where
  reads : List String
  locals : List String

/-- What is read of the surroundings. -/
def Usage.free (usage : Usage) : List String :=
  usage.reads.filter fun name => !usage.locals.contains name

/-- The names that a function declares by its signature. -/
def Signature.locals (s : Signature) : List String := s.paramNames ++ s.name.toList

mutual

/-- Adds the names that an expression reads. -/
def Expression.readsAfter (names : List String) : Expression → List String
  | .identifier name => addName names name
  | .binary left _ right => right.readsAfter (left.readsAfter names)
  | .assignment _ (.member object _) right => right.readsAfter (object.readsAfter names)
  | .assignment _ (.identifier _) right => right.readsAfter names
  | .assignment _ (.verbatim _ _) right => right.readsAfter names
  | .update _ _ target => addNames names target.names
  | .call callee arguments _ => Expression.allReadsAfter (callee.readsAfter names) arguments
  | .member object _ _ => object.readsAfter names
  | .parenthesized inner => inner.readsAfter names
  | .sequence expressions => Expression.allReadsAfter names expressions
  | .function function => addNames names function.references
  | .verbatim _ references => addNames names references
termination_by structural e => e

/-- Adds the names that some expressions read. -/
def Expression.allReadsAfter (names : List String) : List Expression → List String
  | [] => names
  | e :: rest => Expression.allReadsAfter (e.readsAfter names) rest
termination_by structural es => es

/-- The names that a function reads from outside. A name that is declared in any block of the body
is local to the whole body. -/
def Function.references : Function → List String
  | ⟨_, signature, .expression value⟩ => Usage.free ⟨value.readsAfter [], signature.locals⟩
  | ⟨_, signature, .block statements⟩ =>
    (Statement.allUsageAfter ⟨[], signature.locals⟩ statements).free
termination_by structural f => f

/-- Adds what a statement reads and declares. -/
def Statement.usageAfter (usage : Usage) : Statement → Usage
  | .declaration _ declarators => Declarator.allUsageAfter usage declarators
  | .function ⟨id, signature, body⟩ =>
    ⟨addNames usage.reads (Function.references ⟨id, signature, body⟩),
      usage.locals ++ signature.name.toList⟩
  | .expression expression => { usage with reads := expression.readsAfter usage.reads }
  | .block _ body => Statement.allUsageAfter usage body
  | .conditional test consequent none =>
    consequent.usageAfter { usage with reads := test.readsAfter usage.reads }
  | .conditional test consequent (some alternate) =>
    alternate.usageAfter
      (consequent.usageAfter { usage with reads := test.readsAfter usage.reads })
  | .result none => usage
  | .result (some value) => { usage with reads := value.readsAfter usage.reads }
  | .labeled _ body => body.usageAfter usage
  | .verbatim _ references => { usage with reads := addNames usage.reads references }
termination_by structural s => s

/-- Adds what some statements read and declare. -/
def Statement.allUsageAfter (usage : Usage) : List Statement → Usage
  | [] => usage
  | s :: rest => Statement.allUsageAfter (s.usageAfter usage) rest
termination_by structural ss => ss

/-- Adds what some bindings read and declare. -/
def Declarator.allUsageAfter (usage : Usage) : List Declarator → Usage
  | [] => usage
  | ⟨pattern, none⟩ :: rest =>
    Declarator.allUsageAfter { usage with locals := usage.locals ++ pattern.names } rest
  | ⟨pattern, some init⟩ :: rest =>
    Declarator.allUsageAfter
      ⟨init.readsAfter usage.reads, usage.locals ++ pattern.names⟩ rest
termination_by structural ds => ds

end

/-- The names that an expression reads, in order of first appearance. -/
def Expression.references (e : Expression) : List String := e.readsAfter []

/-- The names that a statement reads and does not declare itself. -/
def Statement.references (s : Statement) : List String := (s.usageAfter ⟨[], []⟩).free

end ReactiveMarkup.Script
