import ReactiveMarkup.Reactivity.Declaration

/-!
# The order of reactive declarations

A declaration runs after the declarations that assign what it depends on, its producers; otherwise
source order is kept. Where declarations wait for each other in a cycle, the earliest pending one
goes first.
-/

namespace ReactiveMarkup

/-- Whether the first declaration assigns something that the second depends on. -/
def ReactiveDeclaration.produces (producer consumer : ReactiveDeclaration) : Bool :=
  consumer.dependencies.any fun name => producer.assignees.contains name

namespace Schedule

variable (declarations : List ReactiveDeclaration)

/-- Whether the declaration at position `j` is a producer of the one at position `i`. -/
def isProducer (j i : Nat) : Bool :=
  match declarations[j]?, declarations[i]? with
  | some producer, some consumer => j != i && producer.produces consumer
  | _, _ => false

/-- Whether no pending declaration is a producer of the one at position `i`. -/
def isReady (pending : List Nat) (i : Nat) : Bool :=
  pending.all fun j => !isProducer declarations j i

/-- The pending position to run next: the first that is ready, and in a cycle the first of all. -/
def next? (pending : List Nat) : Option Nat :=
  (pending.find? (isReady declarations pending)).or pending.head?

/-- The order of the pending positions, as far as `fuel` steps. -/
def schedule : Nat → List Nat → List Nat
  | 0, _ => []
  | fuel + 1, pending =>
    match next? declarations pending with
    | none => []
    | some i => i :: schedule fuel (pending.erase i)

/-- The order of all positions. -/
def positions : List Nat :=
  schedule declarations declarations.length (List.range declarations.length)

end Schedule

/-- The declarations in the order in which they run. -/
def orderReactive (declarations : List ReactiveDeclaration) : List ReactiveDeclaration :=
  (Schedule.positions declarations).filterMap (declarations[·]?)

end ReactiveMarkup
