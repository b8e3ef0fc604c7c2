import ReactiveMarkup.Proofs.NodeAssembly

/-!
# Transformations with any visitor

A visitor that is asked about an expression may go on with the parts of any expression, the one that
it was shown or one that it made of it, or put an expression in its place. What a transformation
does with the replies is said here as a relation (`Transforms`), because a visitor that makes its
expressions larger and larger keeps the traversal from ever coming to an end. Together with the
result the relation tells what the visitor was shown, and where in the result stands what came of
it.

Every run leaves the stack of scopes as it was, whatever the node map says
(`Transforms.stack`); a run in which the visitor always goes on with what it was shown changes
nothing (`Transforms.eq_of_goesOn`); and what the visitor puts in a place stands there in the
result, with nothing below it ever shown (`Transforms.stands`, `Transforms.not_inside`).

There is no other run (`Transforms.unique`), and a visitor that goes on with nothing larger has one
(`ends_of_isModest`).
-/

namespace ReactiveMarkup

open Script (Expression Node)
open Script.Node (Inside)

/-- A node stands before everything inside it. -/
theorem Script.Node.lt_of_inside {p q : List Nat} (inside : Inside p q) : q < p := by
  obtain ⟨i, rest, rfl⟩ := inside
  induction q with
  | nil => exact List.nil_lt_cons i rest
  | cons j q ih => exact List.cons_lt_cons_iff.2 (.inr ⟨rfl, ih⟩)

/-- What a visitor may say to an expression. -/
inductive Reply
  /-- Go on with the parts of an expression, which need not be the one that was shown. -/
  | goOn (expression : Expression)
  /-- Put another expression in its place, whose parts are not shown. -/
  | replace (expression : Expression)

/-- An expression that a visitor is shown. -/
structure Showing where
  /-- Where in the result stands what came of the expression. -/
  position : List Nat
  expression : Expression
  scope : ScopeId
  reply : Reply

namespace Showing

/-- What is shown in the `i`th of some nodes. -/
def within (i : Nat) (s : Showing) : Showing := { s with position := i :: s.position }

/-- Whether what came of one expression stands before what came of another, and not around it if the
one was replaced. -/
structure Precedes (s s' : Showing) : Prop where
  before : s.position < s'.position
  apart : ∀ other, s.reply = .replace other → ¬ Inside s'.position s.position

theorem Precedes.within {s s' : Showing} (h : s.Precedes s') (i : Nat) :
    (s.within i).Precedes (s'.within i) where
  before := List.cons_lt_cons_iff.2 (.inr ⟨rfl, h.before⟩)
  apart other replaced inside := h.apart other replaced (Node.inside_cons_cons.1 inside).2

/-- Whether something is shown in one of some nodes, of which the first is the `i`th. -/
def ComesFrom (i : Nat) (s : Showing) : Prop := ∃ k p, i ≤ k ∧ s.position = k :: p

theorem comesFrom_within (i : Nat) (s : Showing) : (s.within i).ComesFrom i :=
  ⟨i, s.position, Nat.le_refl i, rfl⟩

theorem ComesFrom.weaken {i : Nat} {s : Showing} (h : s.ComesFrom (i + 1)) : s.ComesFrom i := by
  obtain ⟨k, p, le, place⟩ := h
  exact ⟨k, p, Nat.le_of_succ_le le, place⟩

/-- What is shown in one node precedes what is shown in later ones. -/
theorem precedes_later {s s' : Showing} {i : Nat} (later : s'.ComesFrom (i + 1)) :
    (s.within i).Precedes s' := by
  obtain ⟨k, p, lt, place⟩ := later
  refine ⟨place ▸ List.cons_lt_cons_iff.2 (.inl lt), fun _ _ inside => ?_⟩
  rw [place] at inside
  exact absurd (Node.inside_cons_cons.1 inside).1 (Nat.ne_of_gt lt)

/-- What was gone on with precedes what is shown below it. -/
theorem precedes_below {s s' : Showing} {next : Expression} (below : s.position < s'.position)
    (wentOn : s.reply = .goOn next) : s.Precedes s' where
  before := below
  apart other replaced := by cases wentOn.symm.trans replaced

/-! What is shown in one node, and then what is shown in later ones. -/

variable {below shown : List Showing} {i : Nat}

theorem forall_joined {P : Showing → Prop} :
    (∀ s ∈ below.map (within i) ++ shown, P s) ↔
      (∀ s ∈ below, P (s.within i)) ∧ ∀ s ∈ shown, P s := by
  rw [List.forall_mem_append, List.forall_mem_map]

theorem comesFrom_joined (behind : ∀ s ∈ shown, s.ComesFrom (i + 1)) :
    ∀ s ∈ below.map (within i) ++ shown, s.ComesFrom i :=
  forall_joined.2 ⟨fun s _ => s.comesFrom_within i, fun s mem => (behind s mem).weaken⟩

theorem pairwise_joined (inner : below.Pairwise Precedes) (others : shown.Pairwise Precedes)
    (behind : ∀ s ∈ shown, s.ComesFrom (i + 1)) :
    (below.map (within i) ++ shown).Pairwise Precedes := by
  refine List.pairwise_append.2 ⟨?_, others, List.forall_mem_map.2 fun s _ s' mem => ?_⟩
  · exact List.pairwise_map.2 (inner.imp fun precedes => precedes.within i)
  · exact precedes_later (behind s' mem)

end Showing

namespace Script.Node

/-- Whether a node stands at a position of some nodes, of which the first is the `i`th. -/
def StandsAt (i : Nat) (ys : List Node) (position : List Nat) (y : Node) : Prop :=
  ∃ j p z, position = (i + j) :: p ∧ ys[j]? = some z ∧ z.at? p = some y

namespace StandsAt

variable {i : Nat} {ys : List Node} {y z : Node}

theorem first {p : List Nat} (found : z.at? p = some y) : StandsAt i (z :: ys) (i :: p) y :=
  ⟨0, p, z, rfl, rfl, found⟩

theorem later {position : List Nat} (h : StandsAt (i + 1) ys position y) :
    StandsAt i (z :: ys) position y := by
  obtain ⟨j, p, z', rfl, member, found⟩ := h
  exact ⟨j + 1, p, z', by rw [Nat.add_right_comm, Nat.add_assoc], member, found⟩

end StandsAt

/-- A node that is put together has at its positions what the new children have there. -/
theorem at?_assemble {x y : Node} {parts : List Node} {position : List Nat}
    (alike : List.Forall₂ Alike x.openChildren parts)
    (stands : StandsAt x.closedCount parts position y) :
    (x.assemble parts).at? position = some y := by
  obtain ⟨j, p, z, rfl, member, found⟩ := stands
  have length : (x.children.take x.closedCount).length = x.closedCount := by
    rw [List.length_take, Nat.min_eq_left x.closedCount_le]
  have child : (x.assemble parts).children[x.closedCount + j]? = some z := by
    rw [children_assemble alike, List.getElem?_append_right (by omega), length,
      Nat.add_sub_cancel_left]
    exact member
  rw [at?, child]
  exact found

/-- What stands among the open children of a node stands in the node. -/
theorem at?_of_standsAt {x y : Node} {position : List Nat}
    (stands : StandsAt x.closedCount x.openChildren position y) : x.at? position = some y := by
  have alike : List.Forall₂ Alike x.openChildren x.openChildren :=
    List.forall₂_same.2 fun z _ => z.alike_refl
  simpa [assemble_openChildren] using at?_assemble alike stands

end Script.Node

namespace Trail

variable {σ : Type}

/-- The trail with which a traversal goes on with the children of a node. -/
def into (trail : Trail σ) (tree : ScopeTree) (x : Node) : Trail σ :=
  (x.id?.map (trail.enter tree)).getD trail

/-- The trail behind a node, from the trail behind its children. -/
def outOf (trail : Trail σ) (x : Node) : Trail σ := if x.id?.isSome then trail.leave else trail

/-- Scopes are entered and left in pairs. -/
theorem stack_outOf {tree : ScopeTree} {x : Node} {trail inner : Trail σ}
    (kept : inner.stack = (trail.into tree x).stack) : (inner.outOf x).stack = trail.stack := by
  unfold into at kept
  unfold outOf
  cases has : x.id? with
  | none => simpa [has] using kept
  | some id =>
    rw [has] at kept
    exact congrArg ScopeStack.leave kept

@[simp] theorem state_into (trail : Trail σ) (tree : ScopeTree) (x : Node) :
    (trail.into tree x).state = trail.state := by
  unfold into
  cases x.id? <;> rfl

@[simp] theorem state_outOf (trail : Trail σ) (x : Node) : (trail.outOf x).state = trail.state := by
  unfold outOf
  split <;> rfl

end Trail

section

variable {σ : Type} (tree : ScopeTree) (visit : Expression → ScopeId → σ → Reply × σ)

/-- A run of a transformation over some nodes, of which the first is the `i`th: the nodes and the
trail before, the nodes and the trail behind, and what the visitor was shown on the way. -/
inductive Transforms : Nat → List Node → Trail σ → List Node → Trail σ → List Showing → Prop
  | nil {i : Nat} {trail : Trail σ} : Transforms i [] trail [] trail []
  | replace {i : Nat} {e other : Expression} {rest ys : List Node} {trail last : Trail σ}
      {state : σ} {shown : List Showing}
      (reply : visit e trail.stack.current trail.state = (.replace other, state))
      (others : Transforms (i + 1) rest ⟨trail.stack, state⟩ ys last shown) :
    Transforms i (.expression e :: rest) trail (.expression other :: ys) last
      (⟨[i], e, trail.stack.current, .replace other⟩ :: shown)
  | goOn {i : Nat} {e next : Expression} {rest parts ys : List Node} {trail inner last : Trail σ}
      {state : σ} {below shown : List Showing}
      (reply : visit e trail.stack.current trail.state = (.goOn next, state))
      (within : Transforms (Node.expression next).closedCount (Node.expression next).openChildren
        ⟨trail.stack, state⟩ parts inner below)
      (others : Transforms (i + 1) rest inner ys last shown) :
    Transforms i (.expression e :: rest) trail ((Node.expression next).assemble parts :: ys) last
      (⟨[i], e, trail.stack.current, .goOn next⟩ :: (below.map (.within i) ++ shown))
  /-- A node that is no expression is not shown, but its children are, in its scope. -/
  | pass {i : Nat} {x : Node} {rest parts ys : List Node} {trail inner last : Trail σ}
      {below shown : List Showing} (plain : x.expression? = none)
      (within : Transforms x.closedCount x.openChildren (trail.into tree x) parts inner below)
      (others : Transforms (i + 1) rest (inner.outOf x) ys last shown) :
    Transforms i (x :: rest) trail (x.assemble parts :: ys) last
      (below.map (.within i) ++ shown)

/-- From one state of the visitor to another one, it was asked exactly about what it was shown, one
after the other. -/
inductive Asked : σ → List Showing → σ → Prop
  | nil (state : σ) : Asked state [] state
  | cons {s : Showing} {shown : List Showing} {state next last : σ}
      (reply : visit s.expression s.scope state = (s.reply, next))
      (others : Asked next shown last) : Asked state (s :: shown) last

variable {tree visit}

namespace Asked

variable {shown shown' : List Showing} {state middle last : σ}

theorem append (h : Asked visit state shown middle) (h' : Asked visit middle shown' last) :
    Asked visit state (shown ++ shown') last := by
  induction h with
  | nil => exact h'
  | cons reply _ ih => exact .cons reply (ih h')

/-- The visitor does not see positions. -/
theorem within (h : Asked visit state shown last) (i : Nat) :
    Asked visit state (shown.map (.within i)) last := by
  induction h with
  | nil state => exact .nil state
  | cons reply _ ih => exact .cons reply ih

/-- Every reply is what the visitor says in some state. -/
theorem exists_state (h : Asked visit state shown last) {s : Showing} (mem : s ∈ shown) :
    ∃ state, s.reply = (visit s.expression s.scope state).1 := by
  induction h with
  | nil => cases mem
  | @cons s' _ state _ _ reply _ ih =>
    rcases List.mem_cons.1 mem with rfl | mem
    · exact ⟨state, by rw [reply]⟩
    · exact ih mem

end Asked

namespace Transforms

variable {i : Nat} {xs ys : List Node} {trail last : Trail σ} {shown : List Showing}

/-- **A run leaves the stack as it found it.** -/
theorem stack (run : Transforms tree visit i xs trail ys last shown) :
    last.stack = trail.stack := by
  induction run with
  | nil => rfl
  | replace _ _ ih => exact ih
  | goOn _ _ _ ihWithin ihOthers => exact ihOthers.trans ihWithin
  | pass _ _ _ ihWithin ihOthers => exact ihOthers.trans (Trail.stack_outOf ihWithin)

theorem asked (run : Transforms tree visit i xs trail ys last shown) :
    Asked visit trail.state shown last.state := by
  induction run with
  | nil => exact .nil _
  | replace reply _ ih => exact .cons reply ih
  | @goOn i _ _ _ _ _ _ _ _ _ _ _ reply _ _ ihWithin ihOthers =>
    exact .cons reply ((ihWithin.within i).append ihOthers)
  | @pass i _ _ _ _ _ _ _ _ _ _ _ _ ihWithin ihOthers =>
    rw [Trail.state_into] at ihWithin
    rw [Trail.state_outOf] at ihOthers
    exact (ihWithin.within i).append ihOthers

/-- **A visitor that always goes on with what it was shown changes nothing.** -/
theorem eq_of_goesOn (run : Transforms tree visit i xs trail ys last shown)
    (goesOn : ∀ s ∈ shown, s.reply = .goOn s.expression) : ys = xs := by
  induction run with
  | nil => rfl
  | replace => cases goesOn _ List.mem_cons_self
  | @goOn _ e next _ _ _ _ _ _ _ _ _ _ _ _ ihWithin ihOthers =>
    obtain ⟨here, rest⟩ := List.forall_mem_cons.1 goesOn
    obtain ⟨inner, others⟩ := Showing.forall_joined.1 rest
    obtain rfl : next = e := Reply.goOn.inj here
    rw [ihWithin inner, ihOthers others, Node.assemble_openChildren]
  | pass _ _ _ ihWithin ihOthers =>
    obtain ⟨inner, others⟩ := Showing.forall_joined.1 goesOn
    rw [ihWithin inner, ihOthers others, Node.assemble_openChildren]

/-- In the result, every node can stand where the one before stood. -/
theorem alike (run : Transforms tree visit i xs trail ys last shown) :
    List.Forall₂ Node.Alike xs ys := by
  induction run with
  | nil => exact .nil
  | replace _ _ ih => exact .cons (.expression _ _) ih
  | goOn _ _ _ _ ihOthers => exact .cons (.expression _ _) ihOthers
  | pass _ _ _ _ ihOthers => exact .cons (Node.alike_assemble _ _) ihOthers

/-! ## Positions -/

/-- What is shown stands in one of the nodes. -/
theorem comesFrom (run : Transforms tree visit i xs trail ys last shown) :
    ∀ s ∈ shown, s.ComesFrom i := by
  induction run with
  | nil => exact List.forall_mem_nil _
  | @replace i _ _ _ _ _ _ _ _ _ _ ih =>
    exact List.forall_mem_cons.2 ⟨⟨i, [], Nat.le_refl i, rfl⟩, fun s mem => (ih s mem).weaken⟩
  | @goOn i _ _ _ _ _ _ _ _ _ _ _ _ _ _ _ ihOthers =>
    exact List.forall_mem_cons.2 ⟨⟨i, [], Nat.le_refl i, rfl⟩, Showing.comesFrom_joined ihOthers⟩
  | pass _ _ _ _ ihOthers => exact Showing.comesFrom_joined ihOthers

/-- What came of the expressions stands in the order in which they were shown, and none of it below
what the visitor put in a place. -/
theorem precedes (run : Transforms tree visit i xs trail ys last shown) :
    shown.Pairwise Showing.Precedes := by
  induction run with
  | nil => exact .nil
  | replace _ others ih =>
    refine List.pairwise_cons.2 ⟨fun s mem => ?_, ih⟩
    exact Showing.precedes_later (s := ⟨[], _, _, _⟩) (others.comesFrom s mem)
  | goOn _ within others ihWithin ihOthers =>
    refine List.pairwise_cons.2 ⟨Showing.forall_joined.2 ⟨fun s mem => ?_, fun s mem => ?_⟩,
      Showing.pairwise_joined ihWithin ihOthers others.comesFrom⟩
    · obtain ⟨k, p, -, place⟩ := within.comesFrom s mem
      exact Showing.precedes_below (Node.lt_of_inside ⟨k, p, congrArg _ place⟩) rfl
    · exact Showing.precedes_later (s := ⟨[], _, _, _⟩) (others.comesFrom s mem)
  | pass _ _ others ihWithin ihOthers =>
    exact Showing.pairwise_joined ihWithin ihOthers others.comesFrom

/-- **Nothing below what the visitor put in a place is ever shown.** -/
theorem not_inside (run : Transforms tree visit i xs trail ys last shown) {s s' : Showing}
    (mem : s ∈ shown) (mem' : s' ∈ shown) {other : Expression}
    (replaced : s.reply = .replace other) : ¬ Inside s'.position s.position := by
  intro inside
  have below := Node.lt_of_inside inside
  have ordered := run.precedes
  obtain ⟨before, behind, rfl⟩ := List.append_of_mem mem
  obtain ⟨-, here, across⟩ := List.pairwise_append.1 ordered
  rcases List.mem_append.1 mem' with earlier | mem'
  · exact List.lt_asymm below (across s' earlier s List.mem_cons_self).before
  · rcases List.mem_cons.1 mem' with rfl | later
    · exact List.lt_irrefl _ below
    · exact ((List.pairwise_cons.1 here).1 s' later).apart other replaced inside

/-- **What the visitor put in a place stands there** in the result. -/
theorem stands (run : Transforms tree visit i xs trail ys last shown) :
    ∀ s ∈ shown, ∀ other, s.reply = .replace other →
      Node.StandsAt i ys s.position (.expression other) := by
  induction run with
  | nil => exact List.forall_mem_nil _
  | replace _ _ ih =>
    refine List.forall_mem_cons.2 ⟨fun other replaced => ?_, fun s mem other replaced => ?_⟩
    · obtain rfl := Reply.replace.inj replaced
      exact .first rfl
    · exact (ih s mem other replaced).later
  | goOn _ within _ ihWithin ihOthers =>
    refine List.forall_mem_cons.2 ⟨fun other replaced => (by cases replaced),
      Showing.forall_joined.2 ⟨fun s mem other replaced => ?_, fun s mem other replaced => ?_⟩⟩
    · exact .first (Node.at?_assemble within.alike (ihWithin s mem other replaced))
    · exact (ihOthers s mem other replaced).later
  | pass _ within _ ihWithin ihOthers =>
    refine Showing.forall_joined.2
      ⟨fun s mem other replaced => ?_, fun s mem other replaced => ?_⟩
    · exact .first (Node.at?_assemble within.alike (ihWithin s mem other replaced))
    · exact (ihOthers s mem other replaced).later

/-- **What is shown stands in its place**, unless the visitor went on with something else. -/
theorem shows (run : Transforms tree visit i xs trail ys last shown)
    (keeps : ∀ s ∈ shown, ∀ next, s.reply = .goOn next → next = s.expression) :
    ∀ s ∈ shown, Node.StandsAt i xs s.position (.expression s.expression) := by
  induction run with
  | nil => exact List.forall_mem_nil _
  | replace _ _ ih =>
    obtain ⟨-, others⟩ := List.forall_mem_cons.1 keeps
    exact List.forall_mem_cons.2 ⟨.first rfl, fun s mem => (ih others s mem).later⟩
  | @goOn _ e next _ _ _ _ _ _ _ _ _ _ _ _ ihWithin ihOthers =>
    obtain ⟨here, rest⟩ := List.forall_mem_cons.1 keeps
    obtain ⟨inner, others⟩ := Showing.forall_joined.1 rest
    obtain rfl : next = e := here next rfl
    refine List.forall_mem_cons.2 ⟨.first rfl, Showing.forall_joined.2
      ⟨fun s mem => ?_, fun s mem => (ihOthers others s mem).later⟩⟩
    exact .first (Node.at?_of_standsAt (ihWithin inner s mem))
  | pass _ _ _ ihWithin ihOthers =>
    obtain ⟨inner, others⟩ := Showing.forall_joined.1 keeps
    refine Showing.forall_joined.2 ⟨fun s mem => ?_, fun s mem => (ihOthers others s mem).later⟩
    exact .first (Node.at?_of_standsAt (ihWithin inner s mem))

/-- **A transformation has one result**, and shows one sequence of expressions. -/
theorem unique (run : Transforms tree visit i xs trail ys last shown) {ys' : List Node}
    {last' : Trail σ} {shown' : List Showing}
    (run' : Transforms tree visit i xs trail ys' last' shown') :
    ys = ys' ∧ last = last' ∧ shown = shown' := by
  -- the reply of the visitor decides which rule applies, and both runs get the same one
  induction run generalizing ys' last' shown' with
  | nil =>
    cases run'
    exact ⟨rfl, rfl, rfl⟩
  | replace reply _ ih =>
    cases run' with
    | replace reply' others' =>
      cases reply.symm.trans reply'
      obtain ⟨rfl, rfl, rfl⟩ := ih others'
      exact ⟨rfl, rfl, rfl⟩
    | goOn reply' => cases reply.symm.trans reply'
    | pass plain => cases plain
  | goOn reply _ _ ihWithin ihOthers =>
    cases run' with
    | replace reply' => cases reply.symm.trans reply'
    | goOn reply' within' others' =>
      cases reply.symm.trans reply'
      obtain ⟨rfl, rfl, rfl⟩ := ihWithin within'
      obtain ⟨rfl, rfl, rfl⟩ := ihOthers others'
      exact ⟨rfl, rfl, rfl⟩
    | pass plain => cases plain
  | pass plain _ _ ihWithin ihOthers =>
    cases run' with
    | replace => cases plain
    | goOn => cases plain
    | pass _ within' others' =>
      obtain ⟨rfl, rfl, rfl⟩ := ihWithin within'
      obtain ⟨rfl, rfl, rfl⟩ := ihOthers others'
      exact ⟨rfl, rfl, rfl⟩

end Transforms

/-! ## Runs that come to an end -/

/-- Whether a visitor never goes on with an expression that is larger than the one it was shown. -/
def IsModest (visit : Expression → ScopeId → σ → Reply × σ) : Prop :=
  ∀ e scope state next, (visit e scope state).1 = .goOn next → sizeOf next ≤ sizeOf e

variable (tree visit) in
/-- Whether a transformation of some nodes comes to an end. -/
def Ends (xs : List Node) : Prop :=
  ∀ (i : Nat) (trail : Trail σ), ∃ ys last shown, Transforms tree visit i xs trail ys last shown

theorem Ends.cons (modest : IsModest visit) {x : Node} {rest : List Node}
    (parts : ∀ y : Node, sizeOf y ≤ sizeOf x → Ends tree visit y.openChildren)
    (others : Ends tree visit rest) : Ends tree visit (x :: rest) := by
  intro i trail
  have pass (plain : x.expression? = none) :
      ∃ ys last shown, Transforms tree visit i (x :: rest) trail ys last shown := by
    obtain ⟨zs, inner, below, within⟩ := parts x (Nat.le_refl _) x.closedCount (trail.into tree x)
    obtain ⟨ys, last, shown, run⟩ := others (i + 1) (inner.outOf x)
    exact ⟨_, _, _, .pass plain within run⟩
  cases x with
  | expression e =>
    rcases replied : visit e trail.stack.current trail.state with ⟨next | other, state⟩
    · have le : sizeOf next ≤ sizeOf e :=
        modest e trail.stack.current trail.state next (by rw [replied])
      obtain ⟨zs, inner, below, within⟩ := parts (.expression next) (by simpa using le)
        (Node.expression next).closedCount ⟨trail.stack, state⟩
      obtain ⟨ys, last, shown, run⟩ := others (i + 1) inner
      exact ⟨_, _, _, .goOn replied within run⟩
    · obtain ⟨ys, last, shown, run⟩ := others (i + 1) ⟨trail.stack, state⟩
      exact ⟨_, _, _, .replace replied run⟩
  | _ => exact pass rfl

variable (tree) in
/-- **A transformation with a modest visitor comes to an end.** -/
theorem ends_of_isModest (modest : IsModest visit) (xs : List Node) : Ends tree visit xs := by
  have bounded : ∀ n, ∀ xs : List Node, (∀ x ∈ xs, sizeOf x < n) → Ends tree visit xs := by
    intro n
    induction n with
    | zero =>
      intro xs small
      cases xs with
      | nil => exact fun i trail => ⟨[], trail, [], .nil⟩
      | cons x rest => exact absurd (small x List.mem_cons_self) (Nat.not_lt_zero _)
    | succ n ihSize =>
      intro xs small
      induction xs with
      | nil => exact fun i trail => ⟨[], trail, [], .nil⟩
      | cons x rest ihRest =>
        refine .cons modest (fun y le => ihSize y.openChildren fun z mem => ?_)
          (ihRest fun z mem => small z (List.mem_cons_of_mem x mem))
        have smaller := Node.sizeOf_lt_of_mem_children (y.openChildren_subset mem)
        have bound := small x List.mem_cons_self
        omega
  exact bounded (sizeOf xs) xs fun x mem => List.sizeOf_lt_of_mem mem

/-- A visitor that wraps whatever it is shown never gets to the end of an expression. -/
theorem not_transforms_of_wrapping
    (wraps : ∀ e scope state, (visit e scope state).1 = .goOn (.parenthesized e)) {i : Nat}
    {e : Expression} {rest ys : List Node} {trail last : Trail σ} {shown : List Showing} :
    ¬ Transforms tree visit i (.expression e :: rest) trail ys last shown := by
  intro run
  generalize same : Node.expression e :: rest = xs at run
  induction run generalizing e rest with
  | nil => cases same
  | @replace _ e' _ _ _ trail _ _ _ reply =>
    have wrapped := wraps e' trail.stack.current trail.state
    rw [reply] at wrapped
    cases wrapped
  | @goOn _ e' _ _ _ _ trail _ _ _ _ _ reply _ _ ihWithin =>
    have wrapped := wraps e' trail.stack.current trail.state
    rw [reply] at wrapped
    obtain rfl := Reply.goOn.inj wrapped
    exact ihWithin rfl
  | pass plain =>
    cases same
    cases plain

end

end ReactiveMarkup
