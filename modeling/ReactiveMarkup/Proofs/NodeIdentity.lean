import Mathlib.Data.List.Nodup
import ReactiveMarkup.Compilation
import ReactiveMarkup.Proofs.DueNotification
import ReactiveMarkup.Proofs.MarkupParsing

/-!
# Node ids are given out once

Scopes are found by node ids, so no two functions or blocks of a component may share one. The ids
that numbering gives to a tree, read in the order in which its nodes are entered, are the next ones
of the counter without a gap (`Counted`). So are the ids of a whole sequence of requests that share
the counter, whatever fails in between (`counted_session`).

Reading a component also numbers script blocks that are dropped again. The ids that are left then
have gaps, but they still stand in ranges one behind the other (`Traced`).
-/

namespace ReactiveMarkup

open Script (Expression Target Function Statement Declarator Node)

/-- Whether some ids are those from `first` on up to `last`, in order. -/
def Counted (first last : Nat) (ids : List Nat) : Prop :=
  first ≤ last ∧ ids = List.range' first (last - first)

namespace Counted

variable {first middle last : Nat} {ids ids' : List Nat}

theorem nil : Counted first first [] := ⟨Nat.le_refl _, by simp⟩

theorem append (h : Counted first middle ids) (h' : Counted middle last ids') :
    Counted first last (ids ++ ids') := by
  obtain ⟨le, rfl⟩ := h
  obtain ⟨le', rfl⟩ := h'
  refine ⟨Nat.le_trans le le', ?_⟩
  have start : middle = first + (middle - first) := by omega
  have sum : middle - first + (last - middle) = last - first := by omega
  conv_lhs => rw [start]
  rw [Nat.add_sub_cancel_left, List.range'_append_1, ← start, sum]

theorem cons (h : Counted (first + 1) last ids) : Counted first last (first :: ids) := by
  have one : Counted first (first + 1) [first] := ⟨Nat.le_succ _, by simp⟩
  exact one.append h

end Counted

/-! ## Numbering a tree -/

namespace Script.Node

/-- Numbers a node of any kind from `next` on. -/
def number (next : Nat) : Node → Node × Nat
  | .script body => (.script (Statement.numberAll next body).1, (Statement.numberAll next body).2)
  | .statement s => (.statement (s.number next).1, (s.number next).2)
  | .declarator kind ⟨pattern, none⟩ => (.declarator kind ⟨pattern, none⟩, next)
  | .declarator kind ⟨pattern, some init⟩ =>
    (.declarator kind ⟨pattern, some (init.number next).1⟩, (init.number next).2)
  | .function f => (.function (f.number next).1, (f.number next).2)
  | .expression e => (.expression (e.number next).1, (e.number next).2)

/-- Numbers some nodes, one after the other. -/
def numberAll (next : Nat) : List Node → List Node × Nat
  | [] => ([], next)
  | x :: rest =>
    let x := x.number next
    let rest := numberAll x.2 rest
    (x.1 :: rest.1, rest.2)

theorem numberAll_expressions (es : List Expression) (next : Nat) :
    numberAll next (es.map .expression) =
      ((Expression.numberAll next es).1.map .expression, (Expression.numberAll next es).2) := by
  induction es generalizing next with
  | nil => rfl
  | cons e rest ih => simp [numberAll, number, Expression.numberAll, ih]

theorem numberAll_statements (ss : List Statement) (next : Nat) :
    numberAll next (ss.map .statement) =
      ((Statement.numberAll next ss).1.map .statement, (Statement.numberAll next ss).2) := by
  induction ss generalizing next with
  | nil => rfl
  | cons s rest ih => simp [numberAll, number, Statement.numberAll, ih]

theorem numberAll_declarators (kind : Script.DeclarationKind) (ds : List Declarator) (next : Nat) :
    numberAll next (ds.map (.declarator kind)) =
      ((Declarator.numberAll next ds).1.map (.declarator kind),
        (Declarator.numberAll next ds).2) := by
  induction ds generalizing next with
  | nil => rfl
  | cons d rest ih =>
    obtain ⟨pattern, _ | init⟩ := d <;> simp [numberAll, number, Declarator.numberAll, ih]

/-- Numbering a target numbers the object whose member it is. -/
theorem numberAll_target (t : Target) (next : Nat) :
    numberAll next (t.object?.toList.map .expression) =
      ((t.number next).1.object?.toList.map .expression, (t.number next).2) := by
  cases t <;> simp [Script.Target.object?, Target.number, numberAll, number]

theorem numberAll_append (xs ys : List Node) (next : Nat) :
    numberAll next (xs ++ ys) =
      ((numberAll next xs).1 ++ (numberAll (numberAll next xs).2 ys).1,
        (numberAll (numberAll next xs).2 ys).2) := by
  induction xs generalizing next with
  | nil => rfl
  | cons x rest ih => simp [numberAll, ih]

/-- What numbering does to a node: one that has an id gets the next one, and the nodes inside it
are numbered behind it, one after the other. -/
structure NumberedFrom (next : Nat) (x y : Node) (last : Nat) : Prop where
  id : y.id? = x.id?.map fun _ => next
  children : (y.children, last) = numberAll (next + x.id?.toList.length) x.children

theorem numberedFrom_expression (e : Expression) (next : Nat) :
    NumberedFrom next (.expression e) (.expression (e.number next).1) (e.number next).2 where
  id := rfl
  children := by
    cases e with
    | call callee arguments optional =>
      simp [id?, children, ofExpression, Expression.number, numberAll, number,
        numberAll_expressions]
    | sequence items =>
      simp [id?, children, ofExpression, Expression.number, numberAll_expressions]
    | assignment operator target right =>
      simp [id?, children, ofExpression, Expression.number, numberAll_append, numberAll_target,
        numberAll, number]
    | update operator leading target =>
      simp [id?, children, ofExpression, Expression.number, numberAll_target]
    | _ => rfl

theorem numberedFrom_function (f : Function) (next : Nat) :
    NumberedFrom next (.function f) (.function (f.number next).1) (f.number next).2 := by
  obtain ⟨id, signature, body | value⟩ := f
  · exact ⟨rfl, by simp [id?, children, ofFunction, Function.number, numberAll_statements]⟩
  · exact ⟨rfl, rfl⟩

theorem numberedFrom_statement (s : Statement) (next : Nat) :
    NumberedFrom next (.statement s) (.statement (s.number next).1) (s.number next).2 := by
  cases s with
  | declaration kind items =>
    exact ⟨rfl, by simp [id?, children, ofStatement, Statement.number, numberAll_declarators]⟩
  | block id body =>
    exact ⟨rfl, by simp [id?, children, ofStatement, Statement.number, numberAll_statements]⟩
  | conditional test consequent alternate => cases alternate <;> exact ⟨rfl, rfl⟩
  | result value => cases value <;> exact ⟨rfl, rfl⟩
  | _ => exact ⟨rfl, rfl⟩

theorem numberedFrom_number (x : Node) (next : Nat) :
    NumberedFrom next x (x.number next).1 (x.number next).2 := by
  cases x with
  | script body => exact ⟨rfl, by simp [id?, children, number, numberAll_statements]⟩
  | statement s => exact numberedFrom_statement s next
  | declarator kind d => obtain ⟨pattern, _ | init⟩ := d <;> exact ⟨rfl, rfl⟩
  | function f => exact numberedFrom_function f next
  | expression e => exact numberedFrom_expression e next

theorem counted_numberAll (xs : List Node)
    (each : ∀ x ∈ xs, ∀ next, Counted next (x.number next).2 (x.number next).1.ids) (next : Nat) :
    Counted next (numberAll next xs).2 ((numberAll next xs).1.flatMap ids) := by
  induction xs generalizing next with
  | nil => exact .nil
  | cons x rest ih =>
    rw [numberAll, List.flatMap_cons]
    exact (each x List.mem_cons_self next).append
      (ih (fun y mem => each y (List.mem_cons_of_mem _ mem)) _)

/-- The ids of a numbered node, in the order in which its nodes are entered, are the next ones of
the counter. -/
theorem counted_number (x : Node) (next : Nat) :
    Counted next (x.number next).2 (x.number next).1.ids := by
  induction x using Node.induction generalizing next with
  | step x inside =>
    obtain ⟨own, parts⟩ := numberedFrom_number x next
    have behind := counted_numberAll x.children inside (next + x.id?.toList.length)
    rw [← parts] at behind
    rw [ids_eq, own]
    cases has : x.id? with
    | none =>
      rw [has] at behind
      exact behind
    | some id =>
      rw [has] at behind
      exact behind.cons

end Script.Node

theorem counted_parseProgram {text : List Char} {next last : Nat} {body : List Statement}
    (read : Script.parseProgram? text next = some (body, last)) :
    Counted next last (Node.script body).ids := by
  obtain ⟨tree, -, eq⟩ := Option.map_eq_some_iff.1 read
  have counted := (Node.script tree).counted_number next
  rw [Node.number, eq] at counted
  exact counted

theorem counted_parseExpression {text : List Char} {next last : Nat} {e : Expression}
    (read : Script.parseExpression? text next = some (e, last)) :
    Counted next last (Node.expression e).ids := by
  obtain ⟨tree, -, eq⟩ := Option.map_eq_some_iff.1 read
  have counted := (Node.expression tree).counted_number next
  rw [Node.number, eq] at counted
  exact counted

/-! ## Requests that share a counter -/

/-- What may be asked for of scripts. -/
inductive Request
  /-- A program that starts at an offset of a component. -/
  | program (code : String) (offset : Nat) (file source : String)
  /-- An expression that starts at an offset of a component. -/
  | expression (code : String) (offset : Nat) (file source : String)
  /-- The expression behind a brace of a component. -/
  | expressionAt (source : String) (offset : Nat) (file : String)
  /-- A node id. -/
  | nodeId

/-- What a request is answered with. -/
inductive Answer
  | program (body : List Statement)
  | expression (expression : Expression)
  | nodeId (id : Nat)

/-- The node ids in an answer, in the order in which nodes are entered. -/
def Answer.ids : Answer → List Nat
  | .program body => (Node.script body).ids
  | .expression e => (Node.expression e).ids
  | .nodeId id => [id]

/-- The answer to a request, and the next free node id, given the one before. -/
def Request.answer (next : Nat) : Request → Except Diagnostic (Answer × Nat)
  | .program code offset file source =>
    (parseProgram code offset next file source).map fun (body, last) => (.program body, last)
  | .expression code offset file source =>
    (parseExpression code offset next file source).map fun (e, last) => (.expression e, last)
  | .expressionAt source offset file =>
    (parseExpressionAt source offset next file).map fun found =>
      (.expression found.expression, found.nextId)
  | .nodeId => .ok (.nodeId next, next + 1)

/-- The answers to requests made one after the other, and the next free node id then. A request
that fails gives no answer, and the next one starts from the counter that it found. -/
def session (next : Nat) : List Request → List Answer × Nat
  | [] => ([], next)
  | request :: rest =>
    match request.answer next with
    | .ok (answer, next) => (answer :: (session next rest).1, (session next rest).2)
    | .error _ => session next rest

theorem counted_answer {request : Request} {next last : Nat} {answer : Answer}
    (ok : request.answer next = .ok (answer, last)) : Counted next last answer.ids := by
  cases request with
  | program code offset file source =>
    unfold Request.answer parseProgram at ok
    dsimp only at ok
    split at ok
    · rename_i result read
      obtain ⟨rfl, rfl⟩ := Prod.mk.inj (Except.ok.inj ok)
      exact counted_parseProgram read
    · cases ok
  | expression code offset file source =>
    unfold Request.answer parseExpression at ok
    dsimp only at ok
    split at ok
    · rename_i result read
      obtain ⟨rfl, rfl⟩ := Prod.mk.inj (Except.ok.inj ok)
      exact counted_parseExpression read
    · cases ok
  | expressionAt source offset file =>
    unfold Request.answer parseExpressionAt Markup.readExpressionAt at ok
    dsimp only at ok
    split at ok
    · cases ok
    · split at ok
      · cases ok
      · rename_i read
        obtain ⟨rfl, rfl⟩ := Prod.mk.inj (Except.ok.inj ok)
        exact counted_parseExpression read
  | nodeId =>
    obtain ⟨rfl, rfl⟩ := Prod.mk.inj (Except.ok.inj ok)
    exact Counted.nil.cons

/-- The ids of all answers of a session are the next ones of the counter. -/
theorem counted_session (requests : List Request) (next : Nat) :
    Counted next (session next requests).2 ((session next requests).1.flatMap Answer.ids) := by
  induction requests generalizing next with
  | nil => exact .nil
  | cons request rest ih =>
    rw [session]
    split
    · rename_i answer last ok
      exact (counted_answer ok).append (ih last)
    · exact ih next

/-- A request that fails leaves no trace: the session goes on as if it had not been made. -/
theorem session_of_failed (before behind : List Request) {request : Request} {next : Nat}
    {diagnostic : Diagnostic}
    (failed : request.answer (session next before).2 = .error diagnostic) :
    session next (before ++ request :: behind) = session next (before ++ behind) := by
  induction before generalizing next with
  | nil =>
    rw [List.nil_append, List.nil_append, session, show request.answer next = _ from failed]
  | cons first rest ih =>
    rw [List.cons_append, List.cons_append, session, session]
    rw [session] at failed
    split at failed <;> simp only [*, ih failed]

/-! ## Components -/

/-- Whether some ids increase and lie in a range of the counter. -/
structure Drawn (first last : Nat) (ids : List Nat) : Prop where
  le : first ≤ last
  increasing : ids.Pairwise (· < ·)
  within : ∀ id ∈ ids, first ≤ id ∧ id < last

namespace Drawn

variable {first middle last : Nat} {ids ids' : List Nat}

theorem nil : Drawn first first [] := ⟨Nat.le_refl _, .nil, by simp⟩

theorem of_counted (h : Counted first last ids) : Drawn first last ids := by
  obtain ⟨le, rfl⟩ := h
  refine ⟨le, List.pairwise_lt_range', fun id mem => ?_⟩
  have := List.mem_range'_1.1 mem
  omega

theorem append (h : Drawn first middle ids) (h' : Drawn middle last ids') :
    Drawn first last (ids ++ ids') where
  le := Nat.le_trans h.le h'.le
  increasing := by
    refine List.pairwise_append.2 ⟨h.increasing, h'.increasing, fun id mem id' mem' => ?_⟩
    exact Nat.lt_of_lt_of_le (h.within id mem).2 (h'.within id' mem').1
  within id mem := by
    have le := h.le
    have le' := h'.le
    rcases List.mem_append.1 mem with mem | mem
    · have := h.within id mem
      omega
    · have := h'.within id mem
      omega

theorem mono {first' last' : Nat} (h : Drawn first last ids) (le : first' ≤ first)
    (le' : last ≤ last') : Drawn first' last' ids where
  le := Nat.le_trans le (Nat.le_trans h.le le')
  increasing := h.increasing
  within id mem := by
    have := h.within id mem
    omega

theorem disjoint (h : Drawn first middle ids) (h' : Drawn middle last ids') :
    ids.Disjoint ids' := by
  intro id mem mem'
  have := (h.within id mem).2
  have := (h'.within id mem').1
  omega

theorem nodup (h : Drawn first last ids) : ids.Nodup :=
  h.increasing.imp fun lt => Nat.ne_of_lt lt

end Drawn

namespace Markup

/-- The ids in some template expressions. -/
def templateIds (es : List Expression) : List Nat := es.flatMap fun e => (Node.expression e).ids

/-- What reading part of a component does to the counter and the script: the ids in its template
expressions lie in the range that was used up, and the script at the end is the one from before, or
one whose ids lie in that range as well and are no ids of the template expressions. -/
structure Traced (p q : Progress) (es : List Expression) : Prop where
  templates : Drawn p.nextId q.nextId (templateIds es)
  script : q.script = p.script ∨ ∃ body, q.script = some body ∧
    Drawn p.nextId q.nextId (Node.script body).ids ∧
    (Node.script body).ids.Disjoint (templateIds es)

namespace Traced

variable {p p' q : Progress} {es es' : List Expression}

/-- Reading what holds no script. -/
theorem unscripted (templates : Drawn p.nextId q.nextId (templateIds es))
    (same : q.script = p.script) : Traced p q es :=
  ⟨templates, .inl same⟩

theorem trans (h : Traced p p' es) (h' : Traced p' q es') : Traced p q (es ++ es') where
  templates := by
    rw [templateIds, List.flatMap_append]
    exact h.templates.append h'.templates
  script := by
    rw [templateIds, List.flatMap_append]
    rcases h'.script with same | ⟨body, eq, drawn, apart⟩
    · rw [same]
      rcases h.script with same | ⟨body, eq, drawn, apart⟩
      · exact .inl same
      · refine .inr ⟨body, eq, drawn.mono (Nat.le_refl _) h'.templates.le, ?_⟩
        exact List.disjoint_append_right.2 ⟨apart, drawn.disjoint h'.templates⟩
    · refine .inr ⟨body, eq, drawn.mono h.templates.le (Nat.le_refl _), ?_⟩
      exact List.disjoint_append_right.2
        ⟨fun _ mem mem' => h.templates.disjoint drawn mem' mem, apart⟩

/-- Reading plain text. -/
theorem passed (text : List Char) : Traced p (p.past text) [] := .unscripted .nil rfl

/-- Reading an expression. -/
theorem expression {code text : List Char} {e : Expression} {next : Nat}
    (read : Script.parseExpression? code p.nextId = some (e, next)) :
    Traced p ((p.past text).numbered next) [e] := by
  refine unscripted ?_ rfl
  rw [templateIds, List.flatMap_singleton]
  exact .of_counted (counted_parseExpression read)

/-- Reading a script block. -/
theorem program {code text : List Char} {body : List Statement} {next : Nat}
    (read : Script.parseProgram? code p.nextId = some (body, next)) :
    Traced p ((p.past text).scripted body next) [] := by
  have drawn := Drawn.of_counted (counted_parseProgram read)
  exact ⟨⟨drawn.le, .nil, by simp [templateIds]⟩, .inr ⟨body, rfl, drawn, by simp [templateIds]⟩⟩

end Traced

theorem traced_attributes {p q : Progress} {text : List Char} {attributes : List Attribute}
    (h : Attributes scriptReader p text attributes q) :
    Traced p q (attributes.map Attribute.value) := by
  induction h with
  | nil => exact .unscripted .nil rfl
  | blank isBlank behind ih => exact (Traced.passed _).trans ih
  | entry named fits balanced accepted behind ih => exact (Traced.expression accepted).trans ih

theorem traced_startTag {p q : Progress} {text : List Char} {name : String}
    {attributes : List Attribute} (h : StartTag scriptReader p text name attributes q) :
    Traced p q (attributes.map Attribute.value) := by
  obtain ⟨named, longest, noScript, attributed⟩ := h
  have inner := (Traced.passed _).trans (traced_attributes attributed)
  rw [← List.append_nil (attributes.map _)]
  exact inner.trans (Traced.passed _)

theorem allExpressions_textFragments (run : List Char) (fragments : List Fragment) :
    Fragment.allExpressions (textFragments run ++ fragments) =
      Fragment.allExpressions fragments := by
  unfold textFragments
  split <;> rfl

/-- What reading some items does to the counter and the script. -/
theorem traced_items {p q : Progress} {text : List Char} {fragments : List Fragment}
    (h : Items scriptReader p text fragments q) :
    Traced p q (Fragment.allExpressions fragments) := by
  induction h with
  | nil => exact .unscripted .nil rfl
  | script first accepted behind ih => exact (Traced.program accepted).trans ih
  | element opening content behind inner ih =>
    exact ((traced_startTag opening).trans inner).trans ((Traced.passed _).trans ih)
  | interpolation balanced accepted behind ih => exact (Traced.expression accepted).trans ih
  | text some fits longest behind ih =>
    rw [allExpressions_textFragments]
    exact (Traced.passed _).trans ih

end Markup

theorem ids_topLevel (script : List Statement) (es : List Expression) :
    (topLevel script es).flatMap Node.ids = (Node.script script).ids ++ Markup.templateIds es := by
  rw [Node.ids_eq]
  simp [topLevel, Node.id?, Node.children, Markup.templateIds, List.flatMap_map]

/-- The functions and blocks of a component that has been read carry distinct ids. -/
theorem distinctIds_of_parse {source file : String} {component : Component}
    (read : Component.parse source file = .ok component) : Client.DistinctIds component := by
  have found : Markup.readComponent scriptReader source.toList = .ok component := by
    unfold Component.parse at read
    cases result : Markup.readComponent scriptReader source.toList with
    | error failure =>
      rw [result] at read
      cases read
    | ok found =>
      rw [result] at read
      rw [Except.ok.inj read]
  obtain ⟨q, items, script⟩ := Markup.items_of_readComponent found
  obtain ⟨templates, kept⟩ := Markup.traced_items items
  rw [Client.DistinctIds, ids_topLevel, script]
  rcases kept with same | ⟨body, eq, drawn, apart⟩
  · rw [show q.script = none from same, Option.getD_none, Node.ids_eq]
    exact templates.nodup
  · rw [eq]
    exact List.nodup_append.2 ⟨drawn.nodup, templates.nodup, fun a mem b mem' eq =>
      apart mem (eq ▸ mem')⟩

/-- No node id is given out twice. The functions and blocks of a component that has been read carry
distinct ids. And for requests that share a counter, the ids in all answers, in the order in which
the nodes are entered, are the next ones of the counter, without a gap; a request that fails leaves
the counter where it was. -/
theorem ids_given_once :
    (∀ source file component, Component.parse source file = .ok component →
      Client.DistinctIds component) ∧
    (∀ requests next, (session next requests).1.flatMap Answer.ids =
      List.range' next ((session next requests).2 - next)) ∧
    (∀ before behind request next diagnostic,
      request.answer (session next before).2 = .error diagnostic →
        session next (before ++ request :: behind) = session next (before ++ behind)) :=
  ⟨fun _ _ _ read => distinctIds_of_parse read,
    fun requests next => (counted_session requests next).2,
    fun before behind _ _ _ failed => session_of_failed before behind failed⟩

/-- A component with a script block that is dropped, before functions in functions and blocks. -/
def nestedSource : String :=
  "<script>\x7b\x7d</script><p on:click=\x7b() => \x7b n = () => 1; \x7d\x7d>" ++
    "\x7bf(function () \x7b\x7d)\x7d</p><script>let n; if (n) \x7b\x7d</script>"

/-- The id of the dropped block is not given out again, and a text that is no expression uses up no
id. -/
theorem ids_given_once_nested :
    (∃ component, Component.parse nestedSource "Page" = .ok component ∧
      (topLevel component.script (Fragment.allExpressions component.html)).flatMap Node.ids =
        [4, 1, 2, 3] ∧ Client.DistinctIds component) ∧
    ∃ diagnostic, (Request.expression ")" 0 "Page" ")").answer (session 0 [.nodeId]).2 =
        .error diagnostic ∧
      session 0 ([.nodeId] ++ .expression ")" 0 "Page" ")" :: [.nodeId]) =
        session 0 ([.nodeId] ++ [.nodeId]) := by
  constructor
  · have read : ((Component.parse nestedSource "Page").toOption.map fun component =>
        (topLevel component.script (Fragment.allExpressions component.html)).flatMap Node.ids) =
        some [4, 1, 2, 3] := by
      decide +kernel
    cases result : Component.parse nestedSource "Page" with
    | error diagnostic =>
      rw [result] at read
      cases read
    | ok component =>
      rw [result] at read
      exact ⟨component, rfl, Option.some.inj read, ids_given_once.1 _ _ component result⟩
  · have failed : ∃ diagnostic, (Request.expression ")" 0 "Page" ")").answer
        (session 0 [.nodeId]).2 = .error diagnostic := ⟨_, by rfl⟩
    obtain ⟨diagnostic, failed⟩ := failed
    exact ⟨diagnostic, failed, ids_given_once.2.2 _ _ _ _ diagnostic failed⟩

end ReactiveMarkup
