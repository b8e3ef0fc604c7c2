import ReactiveMarkup.Proofs.DueNotification
import ReactiveMarkup.Proofs.Evaluation

/-!
# What rewriting keeps of the meaning of a script

A mutation with its notification does what the mutation does, but its value is `undefined`. So an
expression of a client module keeps its value and its effect when nothing in it uses the value of a
notified mutation: when each stands in an expression statement or before the end of a sequence
(`Node.usesAt`). The argument goes through the whole syntax once, with the value or only the effect
of a part as its meaning (`denote_notifyNode`).
-/

namespace ReactiveMarkup

open Script (DeclarationKind Pattern Expression Target Function Body Statement Declarator Node)

namespace Script.Node

/-- Whether a node uses the value of one of its children, when its own value is used or not. -/
def usesChild (used : Bool) : Node → Nat → Bool
  | .statement (.expression _), _ => false
  | .expression (.parenthesized _), _ => used
  | .expression (.sequence items), i => if i + 1 < items.length then false else used
  | _, _ => true

/-- Whether a node uses the value of the expression at a position. -/
def usesAt : Bool → Node → List Nat → Bool
  | used, _, [] => used
  | used, x, i :: rest => x.children[i]?.any fun y => usesAt (x.usesChild used i) y rest

end Script.Node

namespace Semantics

variable (S : Semantics)

/-- What a node stands for. -/
inductive Meaning
  | script (commands : List S.Command)
  | command (command : S.Command)
  | binding (binding : Pattern × Option S.Eval)
  | code (code : S.Code)
  | value (evaluation : S.Eval)
  /-- An expression whose value is not used. -/
  | effect (evaluation : Evaluation S.Env S.Store S.Stop Unit)

/-- The meaning of a node, for an expression with or without its value. -/
def denote (used : Bool) : Node → S.Meaning
  | .script body => .script (body.map S.statement)
  | .statement s => .command (S.statement s)
  | .declarator _ d => .binding (S.declarator d)
  | .function f => .code (S.function f)
  | .expression e => if used then .value (S.expression e) else .effect (S.expression e).effect

variable {S}

theorem denote_value {e e' : Expression}
    (h : S.denote true (.expression e') = S.denote true (.expression e)) :
    S.expression e' = S.expression e := by
  simpa [denote] using h

theorem denote_effect {e e' : Expression}
    (h : S.denote false (.expression e') = S.denote false (.expression e)) :
    (S.expression e').effect = (S.expression e).effect := by
  simpa [denote] using h

theorem denote_of_value {e e' : Expression} (used : Bool)
    (h : S.expression e' = S.expression e) :
    S.denote used (.expression e') = S.denote used (.expression e) := by
  simp [denote, h]

/-- A sequence means the same when its parts do: the effect of all but the last, and of the last
what is used of the sequence. -/
theorem denote_sequence {used : Bool} {rewrite : Expression → Expression} {items : List Expression}
    (each : ∀ i e, items[i]? = some e →
      S.denote (if i + 1 < items.length then false else used) (.expression (rewrite e)) =
        S.denote (if i + 1 < items.length then false else used) (.expression e)) :
    S.denote used (.expression (.sequence (items.map rewrite))) =
      S.denote used (.expression (.sequence items)) := by
  induction items with
  | nil => rfl
  | cons first rest ih =>
    cases rest with
    | nil =>
      have last : S.denote used (.expression (rewrite first)) =
          S.denote used (.expression first) := each 0 first rfl
      simpa [denote, expression, Evaluation.inOrder] using last
    | cons second rest =>
      -- `first` counts by its effect, whatever is used of the sequence
      have before : (S.expression (rewrite first)).effect = (S.expression first).effect :=
        denote_effect (by simpa using each 0 first rfl)
      have behind := ih fun i e found => by simpa using each (i + 1) e (by simpa using found)
      cases used with
      | true =>
        have behind := denote_value behind
        refine denote_of_value true ?_
        simp only [expression, expressions_eq, List.map_cons, Evaluation.inOrder] at behind ⊢
        rw [behind, ← Evaluation.andThen_effect, before, Evaluation.andThen_effect]
      | false =>
        have behind := denote_effect behind
        simp only [denote, expression, expressions_eq, List.map_cons, Evaluation.inOrder,
          Evaluation.effect_andThen, Bool.false_eq_true, if_false] at behind ⊢
        rw [behind, ← Evaluation.andThen_effect, before, Evaluation.andThen_effect]

end Semantics

namespace Client

open Script.Node (Inside counterpart?)

section

variable {S : Semantics} {tree : ScopeTree} {invalidated : NameSet} {stack : ScopeStack}
  {used : Bool}

theorem value_notifyExpression {e : Expression}
    (h : S.denote true (notifyNode tree invalidated stack (.expression e)) =
      S.denote true (.expression e)) :
    S.expression (notifyExpression tree invalidated stack e) = S.expression e :=
  Semantics.denote_value h

theorem effect_notifyExpression {e : Expression}
    (h : S.denote false (notifyNode tree invalidated stack (.expression e)) =
      S.denote false (.expression e)) :
    (S.expression (notifyExpression tree invalidated stack e)).effect = (S.expression e).effect :=
  Semantics.denote_effect h

/-- An expression without a notification of its own keeps its meaning if its parts do. -/
theorem denote_notifyExpression {e : Expression}
    (due : notifiedNames tree invalidated e stack.current = [])
    (each : ∀ i y, (Node.expression e).children[i]? = some y →
      (Node.expression e).isTargetObject i = false →
        S.denote ((Node.expression e).usesChild used i) (notifyNode tree invalidated stack y) =
          S.denote ((Node.expression e).usesChild used i) y) :
    S.denote used (.expression (notifyExpression tree invalidated stack e)) =
      S.denote used (.expression e) := by
  cases e with
  | identifier name => rw [notifyExpression_identifier]
  | verbatim source references => rw [notifyExpression_verbatim]
  | binary left operator right =>
    have left_eq := value_notifyExpression (each 0 (.expression left) rfl rfl)
    have right_eq := value_notifyExpression (each 1 (.expression right) rfl rfl)
    refine Semantics.denote_of_value used ?_
    rw [notifyExpression_binary, Semantics.expression, left_eq, right_eq, Semantics.expression]
  | assignment operator target right =>
    have right_eq : S.expression (notifyExpression tree invalidated stack right) =
        S.expression right := by
      cases target with
      | member object property => exact value_notifyExpression (each 1 (.expression right) rfl rfl)
      | identifier name => exact value_notifyExpression (each 0 (.expression right) rfl rfl)
      | verbatim source names => exact value_notifyExpression (each 0 (.expression right) rfl rfl)
    refine Semantics.denote_of_value used ?_
    rw [notifyExpression_assignment tree invalidated stack due, Semantics.expression, right_eq,
      Semantics.expression]
  | update operator leading target => rw [notifyExpression_update tree invalidated stack due]
  | call callee arguments optional =>
    have callee_eq := value_notifyExpression (each 0 (.expression callee) rfl rfl)
    have arguments_eq : (arguments.map (notifyExpression tree invalidated stack)).map S.expression =
        arguments.map S.expression := by
      rw [List.map_map]
      refine List.map_congr_left fun argument mem => ?_
      obtain ⟨i, found⟩ := List.getElem?_of_mem mem
      refine value_notifyExpression (each (i + 1) (.expression argument) ?_ rfl)
      simp [Node.children, Node.ofExpression, found]
    refine Semantics.denote_of_value used ?_
    rw [notifyExpression_call, Semantics.expression, callee_eq, Semantics.expressions_eq,
      arguments_eq, Semantics.expression, Semantics.expressions_eq]
  | member object property optional =>
    have object_eq := value_notifyExpression (each 0 (.expression object) rfl rfl)
    refine Semantics.denote_of_value used ?_
    rw [notifyExpression_member, Semantics.expression, object_eq, Semantics.expression]
  | parenthesized inner =>
    have inner_eq := each 0 (.expression inner) rfl rfl
    rw [notifyExpression_parenthesized]
    cases used with
    | true =>
      refine Semantics.denote_of_value true ?_
      rw [Semantics.expression, value_notifyExpression inner_eq, Semantics.expression]
    | false =>
      have inner_eq := effect_notifyExpression inner_eq
      simp [Semantics.denote, Semantics.expression, S.effect_parenthesized, inner_eq]
  | sequence items =>
    rw [notifyExpression_sequence]
    refine Semantics.denote_sequence fun i item found => each i (.expression item) ?_ ?_
    · simp [Node.children, Node.ofExpression, found]
    · cases i <;> rfl
  | function f =>
    have function_eq := each 0 (.function f) rfl rfl
    simp only [notifyNode_function, Semantics.denote, Semantics.Meaning.code.injEq] at function_eq
    refine Semantics.denote_of_value used ?_
    rw [notifyExpression_function, Semantics.expression, function_eq, Semantics.expression]

/-- Where the values of all children are used, all of them keep their values. -/
theorem denote_child_of_uses {x : Node} (plain : x.isMutation = false)
    (uses : ∀ i, x.usesChild used i = true)
    (each : ∀ i y, x.children[i]? = some y → x.isTargetObject i = false →
      S.denote (x.usesChild used i) (notifyNode tree invalidated stack y) =
        S.denote (x.usesChild used i) y) :
    ∀ y ∈ x.children, S.denote true (notifyNode tree invalidated stack y) = S.denote true y := by
  intro y mem
  obtain ⟨i, found⟩ := List.getElem?_of_mem mem
  rw [← uses i]
  exact each i y found (Node.isTargetObject_eq_false plain i)

/-- Statements keep their meanings if each of them does. -/
theorem map_notifyStatement {body : List Statement}
    (each : ∀ y ∈ body.map Node.statement,
      S.denote true (notifyNode tree invalidated stack y) = S.denote true y) :
    body.map (S.statement ∘ notifyStatement tree invalidated stack) = body.map S.statement :=
  List.map_congr_left fun s mem =>
    Semantics.Meaning.command.inj (each (.statement s) (List.mem_map_of_mem mem))

/-- A statement keeps its meaning if its parts do. -/
theorem denote_notifyStatement {s : Statement}
    (each : ∀ i y, (Node.statement s).children[i]? = some y →
      (Node.statement s).isTargetObject i = false →
        S.denote ((Node.statement s).usesChild used i)
            (notifyNode tree invalidated (stack.within tree (.statement s)) y) =
          S.denote ((Node.statement s).usesChild used i) y) :
    S.denote used (notifyNode tree invalidated stack (.statement s)) =
      S.denote used (.statement s) := by
  cases s with
  | expression e =>
    -- the value of an expression statement is dropped
    have effect_eq := effect_notifyExpression (each 0 (.expression e) rfl rfl)
    simp_all [Semantics.denote, Semantics.statement, ScopeStack.within, Node.id?]
  | conditional test consequent alternate =>
    have all := denote_child_of_uses rfl (fun _ => rfl) each
    cases alternate <;>
      simp_all [Node.children, Node.ofStatement, Semantics.denote, Semantics.statement,
        ScopeStack.within, Node.id?]
  | result value =>
    have all := denote_child_of_uses rfl (fun _ => rfl) each
    cases value <;>
      simp_all [Node.children, Node.ofStatement, Semantics.denote, Semantics.statement,
        ScopeStack.within, Node.id?]
  | declaration kind items =>
    have all := denote_child_of_uses rfl (fun _ => rfl) each
    have items_eq : items.map (S.declarator ∘ notifyDeclarator tree invalidated stack) =
        items.map S.declarator := by
      refine List.map_congr_left fun d mem => ?_
      have binding_eq := all (.declarator kind d) (List.mem_map_of_mem mem)
      simpa [Semantics.denote, ScopeStack.within, Node.id?] using binding_eq
    simp [Semantics.denote, Semantics.statement, items_eq]
  | block id body =>
    have body_eq : body.map (S.statement ∘ notifyStatement tree invalidated
        (stack.enter tree id)) = body.map S.statement :=
      map_notifyStatement (denote_child_of_uses rfl (fun _ => rfl) each)
    simp [Semantics.denote, Semantics.statement, body_eq]
  | _ =>
    have all := denote_child_of_uses rfl (fun _ => rfl) each
    simp_all [Node.children, Node.ofStatement, Semantics.denote, Semantics.statement,
      ScopeStack.within, Node.id?]

/-- A node without a notification of its own keeps its meaning if its children do. -/
theorem denote_of_children {x : Node} (due : dueIn tree invalidated x stack.current = [])
    (each : ∀ i y, x.children[i]? = some y → x.isTargetObject i = false →
      S.denote (x.usesChild used i) (notifyNode tree invalidated (stack.within tree x) y) =
        S.denote (x.usesChild used i) y) :
    S.denote used (notifyNode tree invalidated stack x) = S.denote used x := by
  cases x with
  | expression e => exact denote_notifyExpression due each
  | statement s => exact denote_notifyStatement each
  | script body =>
    have all := denote_child_of_uses rfl (fun _ => rfl) each
    simp_all [Node.children, Semantics.denote, ScopeStack.within, Node.id?]
  | declarator kind d =>
    have all := denote_child_of_uses rfl (fun _ => rfl) each
    obtain ⟨pattern, init⟩ := d
    cases init <;>
      simp_all [Node.children, Semantics.denote, Semantics.declarator, notifyDeclarator,
        ScopeStack.within, Node.id?]
  | function f =>
    have all := denote_child_of_uses rfl (fun _ => rfl) each
    obtain ⟨id, signature, body⟩ := f
    cases body with
    | block body =>
      have body_eq : body.map (S.statement ∘ notifyStatement tree invalidated
          (stack.enter tree id)) = body.map S.statement := map_notifyStatement all
      simp [Semantics.denote, Semantics.function, body_eq]
    | expression value =>
      have value_eq := value_notifyExpression (all (.expression value) List.mem_cons_self)
      simp_all [Semantics.denote, Semantics.function, ScopeStack.within, Node.id?]

/-- **A node keeps its meaning if the value of no notified mutation in it is used.** -/
theorem denote_notifyNode {x : Node}
    (dropped : ∀ r y, x.at? r = some y → dueAt tree invalidated stack.current x r ≠ [] →
      Reached tree invalidated stack.current x r → x.usesAt used r = false) :
    S.denote used (notifyNode tree invalidated stack x) = S.denote used x := by
  induction x using Node.induction generalizing used stack with
  | step x ih =>
    by_cases due : dueIn tree invalidated x stack.current = []
    -- the positions of a child are positions of `x`, one step further in
    · refine denote_of_children due fun i y child object => ?_
      refine ih y (List.mem_of_getElem? child) fun r z found due' reached => ?_
      rw [ScopeStack.current_within] at due' reached
      have inner := dropped (i :: r) z (by simp [Node.at?, child, found])
        (by rwa [dueAt_cons tree invalidated child])
        ((reached_cons tree invalidated child r).2 ⟨due, object, reached⟩)
      simpa [Node.usesAt, child] using inner
    -- `x` itself is notified: its value is not used, and its effect is that of the mutation
    · obtain rfl : used = false := dropped [] x rfl due (reached_nil tree invalidated _ x)
      obtain ⟨m, rfl, -, eq⟩ := notifyNode_of_due tree invalidated stack due
      rw [eq]
      simp [Semantics.denote, Semantics.expression_notified, Evaluation.effect_andThen_yields]

end

/-- Whether rewriting puts a notification behind the mutation at a position. -/
def NotifiedAt (root rewritten : Node) (p : List Nat) : Prop :=
  ∃ m names, root.at? p = some (.expression m) ∧
    counterpart? root rewritten p = some (.expression (notified m names))

/-- What a rewritten tree keeps of the meaning of the original. -/
structure KeepsMeaning (S : Semantics) (root rewritten : Node) : Prop where
  /-- A notified mutation ends as before and with the same store, but its value is `undefined`. -/
  mutation : ∀ p m, root.at? p = some (.expression m) → NotifiedAt root rewritten p →
    ∃ e, counterpart? root rewritten p = some (.expression e) ∧
      ∀ env store outcome store', S.expression e env store outcome store' ↔
        (outcome = .ok S.undefined ∧ ∃ value, S.expression m env store (.ok value) store') ∨
          ∃ stop, outcome = .error stop ∧ S.expression m env store (.error stop) store'
  /-- An expression has the same value and the same store as before if it uses the value of no
  notified mutation in it. -/
  expression : ∀ p e, root.at? p = some (.expression e) →
    (∀ r, NotifiedAt root rewritten (p ++ r) → (Node.expression e).usesAt true r = false) →
      ∃ e', counterpart? root rewritten p = some (.expression e') ∧
        ∀ env store outcome store',
          S.expression e' env store outcome store' ↔ S.expression e env store outcome store'
  /-- The same holds of statements. -/
  statement : ∀ p s, root.at? p = some (.statement s) →
    (∀ r, NotifiedAt root rewritten (p ++ r) → (Node.statement s).usesAt true r = false) →
      ∃ s', counterpart? root rewritten p = some (.statement s') ∧ S.statement s' = S.statement s

section

variable {component : Component} {marker : String} {root rewritten : Node}

theorem Rewriting.notifiedAt (h : Rewriting component marker root rewritten) {p : List Nat}
    {y : Node} (found : root.at? p = some y)
    (due : dueAt (component.analyze marker).analysis.scopes
      (component.analyze marker).analysis.invalidated rootScope root p ≠ [])
    (reached : Reached (component.analyze marker).analysis.scopes
      (component.analyze marker).analysis.invalidated rootScope root p) :
    NotifiedAt root rewritten p := by
  obtain ⟨m, rfl, -⟩ := exists_mutation_of_dueAt _ _ found due
  exact ⟨m, _, found, h.counterpart?_of_due found reached due⟩

/-- The counterpart of a node keeps its meaning if the value of no notified mutation is used. -/
theorem Rewriting.exists_denote_eq (h : Rewriting component marker root rewritten)
    (S : Semantics) {p : List Nat} {y : Node} (found : root.at? p = some y)
    (dropped : ∀ r, NotifiedAt root rewritten (p ++ r) → y.usesAt true r = false) :
    ∃ y', counterpart? root rewritten p = some y' ∧ S.denote true y' = S.denote true y := by
  by_cases reached : Reached (component.analyze marker).analysis.scopes
      (component.analyze marker).analysis.invalidated rootScope root p
  · have place : counterpart? root (notifyNode _ _ .start root) p = _ :=
      counterpart?_of_reached found reached
    rw [← h.rewritten_eq] at place
    refine ⟨_, place, denote_notifyNode fun r z inner due reached' => dropped r ?_⟩
    rw [ScopeStack.current_withinAt] at due reached'
    refine h.notifiedAt (y := z) ?_ ?_ ?_
    · rw [Node.at?_append, found]
      exact inner
    · rwa [dueAt_append _ _ found]
    · exact (reached_append _ _ found r).2 ⟨reached, reached'⟩
  · exact ⟨y, (h.counterpart?_of_missed reached).trans found, rfl⟩

end

/-- **Rewriting keeps the meaning of a script but for the values of notified mutations**, in every
semantics. -/
theorem keepsMeaning_of_rewriting {component : Component} {marker : String} {root rewritten : Node}
    (rewriting : Rewriting component marker root rewritten) (S : Semantics) :
    KeepsMeaning S root rewritten where
  mutation p m found isNotified := by
    obtain ⟨m', names, found', place⟩ := isNotified
    obtain rfl : m = m' := Node.expression.inj (Option.some.inj (found.symm.trans found'))
    refine ⟨_, place, fun env store outcome store' => ?_⟩
    -- a notification comes behind the mutation and gives no value
    rw [S.expression_notified]
    constructor
    · rintro (⟨value, middle, done, rfl, rfl⟩ | stopped)
      · exact .inl ⟨rfl, value, done⟩
      · exact .inr stopped
    · rintro (⟨rfl, value, done⟩ | stopped)
      · exact .inl ⟨value, store', done, rfl, rfl⟩
      · exact .inr stopped
  expression p e found dropped := by
    obtain ⟨y', place, same⟩ := rewriting.exists_denote_eq S found dropped
    cases y' with
    | expression e' =>
      refine ⟨e', place, fun env store outcome store' => ?_⟩
      rw [Semantics.denote_value same]
    | _ => simp [Semantics.denote] at same
  statement p s found dropped := by
    obtain ⟨y', place, same⟩ := rewriting.exists_denote_eq S found dropped
    cases y' with
    | statement s' => exact ⟨s', place, Semantics.Meaning.command.inj same⟩
    | _ => simp [Semantics.denote] at same

/-- A variable that is set to what another was before its update. -/
def postponed : Component where
  html := [.expression (.identifier "n")]
  script :=
    [.declaration .lexical [⟨.identifier "n", some (.verbatim "0" [])⟩],
      .declaration .lexical
        [⟨.identifier "old", some (.update "++" false (.identifier "n"))⟩]]

theorem counterpart?_postponed :
    counterpart? (.script postponed.script)
        (.script (notifyScript (postponed.analyze "on:").analysis postponed.script)) [1, 0, 0] =
      some (.expression (notified (.update "++" false (.identifier "n")) ["n"])) := by
  have due : notifiedNames (postponed.analyze "on:").analysis.scopes
      (postponed.analyze "on:").analysis.invalidated (.update "++" false (.identifier "n"))
      ScopeStack.start.current = ["n"] := by decide +kernel
  generalize (postponed.analyze "on:").analysis = a at due ⊢
  rw [notifyScript, transformStatements_eq]
  simp [postponed, notifyDeclarator, notifyExpression_of_names _ _ _ due, counterpart?,
    Node.unwrapped, Node.isMutation, Node.children, Node.ofStatement]

theorem keepsMeaning_postponed :
    NotifiedAt (.script postponed.script)
        (.script (notifyScript (postponed.analyze "on:").analysis postponed.script)) [1, 0, 0] ∧
      KeepsMeaning .integers (.script postponed.script)
        (.script (notifyScript (postponed.analyze "on:").analysis postponed.script)) :=
  ⟨⟨_, _, rfl, counterpart?_postponed⟩,
    keepsMeaning_of_rewriting (.script fun _ mem => mem) .integers⟩

/-- Where `n` is `0`, the initial value of `old` is `0` in the script and `undefined` in the client
module. -/
theorem initial_value_lost :
    (Node.script postponed.script).at? [1, 0, 0] =
        some (.expression (.update "++" false (.identifier "n"))) ∧
      ∃ e, counterpart? (.script postponed.script)
          (.script (notifyScript (postponed.analyze "on:").analysis postponed.script)) [1, 0, 0] =
          some (.expression e) ∧
        ∃ store, Semantics.integers.expression (.update "++" false (.identifier "n")) ()
            (fun _ => some 0) (.ok (some 0)) store ∧
          Semantics.integers.expression e () (fun _ => some 0) (.ok none) store ∧
          ∀ store', ¬ Semantics.integers.expression e () (fun _ => some 0) (.ok (some 0))
            store' := by
  refine ⟨rfl, _, counterpart?_postponed, _, ⟨rfl, rfl⟩, ?_, fun store' yields => ?_⟩
  · rw [Semantics.expression_notified]
    exact .inl ⟨some 0, _, ⟨rfl, rfl⟩, rfl, rfl⟩
  · rw [Semantics.expression_notified] at yields
    rcases yields with ⟨_, _, _, absurd, _⟩ | ⟨stop, _, _⟩
    · cases absurd
    · exact stop.elim

end Client

end ReactiveMarkup
