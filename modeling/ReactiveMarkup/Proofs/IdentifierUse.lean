import ReactiveMarkup.Emission.Tree

/-!
# Uses of identifiers

`Statement.uses` lists the places of a generated module at which an identifier is read or assigned,
with the parameters and local names that are in scope there, and the places at which script text
stands. Nothing is said about the identifiers in script text, since it enters a module as text.
-/

namespace ReactiveMarkup

/-- Whether a name starts with two dollar signs. -/
def IsGenerated (name : String) : Prop := ['$', '$'] <+: name.toList

instance : DecidablePred IsGenerated := fun name =>
  inferInstanceAs (Decidable (['$', '$'] <+: name.toList))

namespace Emission

/-- A place at which a module uses an identifier or holds script text. The scope of an identifier
are the parameters and local names around it. -/
inductive Use
  | read (name : String) (scope : List String)
  /-- The target of an assignment. -/
  | write (name : String) (scope : List String)
  | script (code : String)
deriving DecidableEq, Repr

/-- The names that a statement declares for the statements behind it. -/
def Statement.declared : Statement → List String
  | .declare name _ => [name]
  | .constant name _ => [name]
  | .function name _ _ => [name]
  | _ => []

/-- The name of a parameter of a function, which may be written with its default. -/
def parameterName (parameter : String) : String :=
  String.ofList (parameter.toList.takeWhile (· ≠ ' '))

mutual

/-- The uses in a statement, given the local names around it. -/
def Statement.uses (scope : List String) : Statement → List Use
  | .declare _ none => []
  | .declare _ (some init) => init.uses scope
  | .constant _ init => init.uses scope
  | .expression e => e.uses scope
  | .guarded test body => test.uses scope ++ Statement.allUses scope body
  | .result value => value.uses scope
  | .function _ params body => Statement.allUses (params.map parameterName ++ scope) body
  | .loop test body => test.uses scope ++ Statement.allUses scope body
  | .each binding iterable body =>
    iterable.uses scope ++ Statement.allUses (binding :: scope) body
  | .ensured body finalizer => Statement.allUses scope body ++ Statement.allUses scope finalizer
  | .verbatim code => [.script code]
termination_by structural s => s

/-- The uses in some statements; what one declares is a local name for those behind it. -/
def Statement.allUses (scope : List String) : List Statement → List Use
  | [] => []
  | s :: rest => s.uses scope ++ Statement.allUses (s.declared ++ scope) rest
termination_by structural ss => ss

/-- The uses in an expression. -/
def Expression.uses (scope : List String) : Expression → List Use
  | .identifier name => [.read name scope]
  | .text _ => []
  | .number _ => []
  | .boolean _ => []
  | .array items => Expression.allUses scope items
  | .member object _ => object.uses scope
  | .index object key => object.uses scope ++ key.uses scope
  | .call callee arguments => callee.uses scope ++ Expression.allUses scope arguments
  | .assign (.identifier name) value => .write name scope :: value.uses scope
  | .assign target value => target.uses scope ++ value.uses scope
  | .unary _ operand => operand.uses scope
  | .binary left _ right => left.uses scope ++ right.uses scope
  | .conditional test consequent alternate =>
    test.uses scope ++ consequent.uses scope ++ alternate.uses scope
  | .arrow params body => body.uses (params.map parameterName ++ scope)
  | .object methods => Method.allUses scope methods
  | .template parts => TemplatePart.allUses scope parts
  | .verbatim code => [.script code]
termination_by structural e => e

/-- The uses in some expressions. -/
def Expression.allUses (scope : List String) : List Expression → List Use
  | [] => []
  | e :: rest => e.uses scope ++ Expression.allUses scope rest
termination_by structural es => es

/-- The uses in a method. -/
def Method.uses (scope : List String) : Method → List Use
  | ⟨_, params, body⟩ =>
    Parameter.allUses scope params ++ Statement.allUses (params.map Parameter.name ++ scope) body
termination_by structural m => m

/-- The uses in some methods. -/
def Method.allUses (scope : List String) : List Method → List Use
  | [] => []
  | m :: rest => m.uses scope ++ Method.allUses scope rest
termination_by structural ms => ms

/-- The uses in the defaults of some parameters; each knows the parameters before it. -/
def Parameter.allUses (scope : List String) : List Parameter → List Use
  | [] => []
  | ⟨name, none⟩ :: rest => Parameter.allUses (name :: scope) rest
  | ⟨name, some fallback⟩ :: rest =>
    fallback.uses scope ++ Parameter.allUses (name :: scope) rest
termination_by structural ps => ps

/-- The uses in the slots of a template literal. -/
def TemplatePart.allUses (scope : List String) : List TemplatePart → List Use
  | [] => []
  | .literal _ :: rest => TemplatePart.allUses scope rest
  | .slot e :: rest => e.uses scope ++ TemplatePart.allUses scope rest
termination_by structural ps => ps

end

/-- Whether the identifier at a place is a known name, or a generated one that is in scope there. -/
def Use.Resolves (known : String → Prop) : Use → Prop
  | .read name scope => known name ∨ name ∈ scope ∧ IsGenerated name
  | .write name scope => known name ∨ name ∈ scope ∧ IsGenerated name
  | .script _ => True

instance (known : String → Prop) [DecidablePred known] : DecidablePred (Use.Resolves known)
  | .read name scope => inferInstanceAs (Decidable (known name ∨ name ∈ scope ∧ IsGenerated name))
  | .write name scope => inferInstanceAs (Decidable (known name ∨ name ∈ scope ∧ IsGenerated name))
  | .script _ => isTrue trivial

theorem Use.Resolves.mono {known known' : String → Prop} (more : ∀ name, known name → known' name) :
    ∀ {u : Use}, u.Resolves known → u.Resolves known'
  | .read name _, h => h.imp_left (more name)
  | .write name _, h => h.imp_left (more name)
  | .script _, _ => trivial

/-- Whether the identifier at a place is read, and is a generated name that is in scope there. -/
def Use.IsLocal : Use → Prop
  | .read name scope => name ∈ scope ∧ IsGenerated name
  | .write _ _ => False
  | .script _ => True

theorem Use.IsLocal.resolves {known : String → Prop} : ∀ {u : Use}, u.IsLocal → u.Resolves known
  | .read _ _, h => .inr h
  | .script _, _ => trivial

/-- The names that are read at a place. Those in script text are given by a function of the text. -/
def Use.reads (names : String → List String) : Use → List String
  | .read name _ => [name]
  | .write _ _ => []
  | .script code => names code

/-- The names that are assigned at a place, script text aside. -/
def Use.writes : Use → List String
  | .write name _ => [name]
  | _ => []

theorem Use.IsLocal.writes_eq : ∀ {u : Use}, u.IsLocal → u.writes = []
  | .read _ _, _ => rfl
  | .script _, _ => rfl

/-- The names that a statement reads. -/
def Statement.reads (names : String → List String) (s : Statement) : List String :=
  (s.uses []).flatMap (Use.reads names)

/-- The names that a statement assigns, script text aside. -/
def Statement.writes (s : Statement) : List String := (s.uses []).flatMap Use.writes

/-- Statements that declare nothing are in the scope of their block. -/
theorem Statement.allUses_of_declared {ss : List Statement} (plain : ∀ s ∈ ss, s.declared = [])
    (scope : List String) : allUses scope ss = ss.flatMap (uses scope) := by
  induction ss with
  | nil => rfl
  | cons s rest ih =>
    obtain ⟨first, behind⟩ := List.forall_mem_cons.1 plain
    rw [allUses, first, List.nil_append, ih behind, List.flatMap_cons]

end Emission

end ReactiveMarkup
