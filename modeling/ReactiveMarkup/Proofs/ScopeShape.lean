import ReactiveMarkup.Scope.Tree

/-!
# The shape of a scope tree

Declarations only add names to scopes. How the scopes are nested and which of them belong to
functions, the `shape` of the tree, only ever grows at its end. Every scope comes after the one
around it (`Ordered`), so the search for the owner of a name and the search for the function around
a scope end before their bound does, and neither depends on scopes that are opened later.
-/

namespace ReactiveMarkup

theorem Scope.declares_declare (scope : Scope) (name other : String) (kind : BindingKind) :
    (scope.declare name kind).declares other = true ↔
      scope.declares other = true ∨ other = name := by
  unfold Scope.declare
  split
  · rename_i present
    constructor
    · exact Or.inl
    · rintro (h | rfl)
      · exact h
      · exact present
  · simp [Scope.declares, @eq_comm _ name]

namespace ScopeTree

/-- The scopes without their declarations. -/
def shape (t : ScopeTree) : List (Option ScopeId × Bool) :=
  t.scopes.map fun scope => (scope.parent, scope.isFunction)

/-- Whether the scope of the given number declares a name. -/
def declaresAt (t : ScopeTree) (id : ScopeId) (name : String) : Bool :=
  t.scopes[id]?.any (·.declares name)

/-- The root is a function scope of its own, and every other scope comes after the one around
it. -/
structure Ordered (t : ScopeTree) : Prop where
  root : t.shape[0]? = some (none, true)
  nested : ∀ {id : Nat}, 0 < id → id < t.shape.length →
    ∃ parent isFunction, t.shape[id]? = some (some parent, isFunction) ∧ parent < id

@[simp] theorem length_shape (t : ScopeTree) : t.shape.length = t.scopes.length := by
  simp [shape]

theorem shape_getElem? (t : ScopeTree) (id : Nat) :
    t.shape[id]? = t.scopes[id]?.map fun scope => (scope.parent, scope.isFunction) := by
  simp [shape]

theorem shape_getElem?_of_grown {t t' : ScopeTree} (grown : t.shape <+: t'.shape) {id : Nat}
    (lt : id < t.scopes.length) : t'.shape[id]? = t.shape[id]? := by
  have inside : id < t.shape.length := by simpa using lt
  rw [List.prefix_iff_getElem?.1 grown id inside, List.getElem?_eq_getElem inside]

theorem ordered_start : start.Ordered where
  root := rfl
  nested := by
    intro id pos lt
    simp [shape, start] at lt
    exact absurd lt (Nat.pos_iff_ne_zero.1 pos)

namespace Ordered

variable {t t' : ScopeTree}

theorem length_pos (h : t.Ordered) : 0 < t.scopes.length := by
  have := List.getElem?_eq_some_iff.1 h.root
  simpa using this.1

theorem parent_lt (h : t.Ordered) {id parent : Nat} {isFunction : Bool}
    (found : t.shape[id]? = some (some parent, isFunction)) : parent < id := by
  have lt : id < t.shape.length := (List.getElem?_eq_some_iff.1 found).1
  rcases Nat.eq_zero_or_pos id with rfl | pos
  · rw [h.root] at found
    simp at found
  · obtain ⟨parent', isFunction', found', lt'⟩ := h.nested pos lt
    rw [found] at found'
    simp only [Option.some.injEq, Prod.mk.injEq] at found'
    exact found'.1 ▸ lt'

theorem of_shape_eq (h : t.Ordered) (same : t'.shape = t.shape) : t'.Ordered where
  root := same ▸ h.root
  nested := by
    rw [same]
    exact h.nested

end Ordered

/-! ## The function around a scope -/

theorem functionScopeWithin_succ (t : ScopeTree) (fuel : Nat) (id : Nat) :
    t.functionScopeWithin (fuel + 1) id =
      match t.shape[id]? with
      | some (some parent, false) => t.functionScopeWithin fuel parent
      | _ => id := by
  rw [functionScopeWithin, shape_getElem?]
  cases found : t.scopes[id]? with
  | none => rfl
  | some scope =>
    obtain ⟨parent, isFunction, declarations⟩ := scope
    cases isFunction <;> cases parent <;> rfl

/-- With enough steps, the search sees only scopes up to where it starts. -/
theorem functionScopeWithin_congr {t t' : ScopeTree} (h : t.Ordered)
    (grown : t.shape <+: t'.shape) {fuel fuel' : Nat} {id : Nat} (lt : id < t.scopes.length)
    (enough : id < fuel) (enough' : id < fuel') :
    t.functionScopeWithin fuel id = t'.functionScopeWithin fuel' id := by
  induction fuel generalizing fuel' id with
  | zero => exact absurd enough (Nat.not_lt_zero id)
  | succ fuel ih =>
    obtain ⟨fuel', rfl⟩ := Nat.exists_eq_succ_of_ne_zero (Nat.ne_of_gt (Nat.zero_lt_of_lt enough'))
    rw [functionScopeWithin_succ, functionScopeWithin_succ, shape_getElem?_of_grown grown lt]
    rcases found : t.shape[id]? with _ | ⟨_ | parent, _ | _⟩
    · rfl
    · rfl
    · rfl
    · have below := h.parent_lt found
      exact ih (by omega) (by omega) (by omega)
    · rfl

theorem functionScope_of_grown {t t' : ScopeTree} (h : t.Ordered) (grown : t.shape <+: t'.shape)
    {id : Nat} (lt : id < t.scopes.length) : t'.functionScope id = t.functionScope id := by
  have longer := grown.length_le
  simp only [length_shape] at longer
  exact (functionScopeWithin_congr h grown lt lt (by omega)).symm

theorem functionScope_of_function {t : ScopeTree} {id : Nat} {parent : Option ScopeId}
    (found : t.shape[id]? = some (parent, true)) : t.functionScope id = id := by
  have lt : id < t.scopes.length := by
    simpa using (List.getElem?_eq_some_iff.1 found).1
  obtain ⟨fuel, eq⟩ := Nat.exists_eq_succ_of_ne_zero (Nat.ne_of_gt (Nat.zero_lt_of_lt lt))
  rw [functionScope, eq, functionScopeWithin_succ, found]
  cases parent <;> rfl

theorem functionScope_of_block {t : ScopeTree} (h : t.Ordered) {id parent : Nat}
    (found : t.shape[id]? = some (some parent, false)) :
    t.functionScope id = t.functionScope parent := by
  have lt : id < t.scopes.length := by
    simpa using (List.getElem?_eq_some_iff.1 found).1
  have below := h.parent_lt found
  obtain ⟨fuel, eq⟩ := Nat.exists_eq_succ_of_ne_zero (Nat.ne_of_gt (Nat.zero_lt_of_lt lt))
  rw [functionScope, eq, functionScopeWithin_succ, found]
  exact functionScopeWithin_congr h (List.prefix_refl _) (by omega) (by omega) (by omega)

theorem functionScopeWithin_le {t : ScopeTree} (h : t.Ordered) (fuel : Nat) (id : Nat) :
    t.functionScopeWithin fuel id ≤ id := by
  induction fuel generalizing id with
  | zero => exact Nat.le_refl id
  | succ fuel ih =>
    rw [functionScopeWithin_succ]
    split
    · rename_i parent found
      exact Nat.le_trans (ih parent) (Nat.le_of_lt (h.parent_lt found))
    · exact Nat.le_refl id

theorem functionScope_le {t : ScopeTree} (h : t.Ordered) (id : Nat) :
    t.functionScope id ≤ id := functionScopeWithin_le h _ id

theorem functionScope_of_shape_eq {t t' : ScopeTree} (same : t'.shape = t.shape) (id : Nat) :
    t'.functionScope id = t.functionScope id := by
  have within : ∀ fuel id, t'.functionScopeWithin fuel id = t.functionScopeWithin fuel id := by
    intro fuel
    induction fuel with
    | zero => intro id; rfl
    | succ fuel ih =>
      intro id
      rw [functionScopeWithin_succ, functionScopeWithin_succ, same]
      split
      · exact ih _
      · rfl
  rw [functionScope, functionScope, ← length_shape, ← length_shape, same]
  exact within _ id

/-! ## Declaring names -/

theorem shape_declare (t : ScopeTree) (id : Nat) (name : String) (kind : BindingKind) :
    (t.declare id name kind).shape = t.shape := by
  have kept : ∀ scope : Scope, ((scope.declare name kind).parent,
      (scope.declare name kind).isFunction) = (scope.parent, scope.isFunction) := by
    intro scope
    unfold Scope.declare
    split <;> rfl
  apply List.ext_getElem?
  intro k
  rw [shape_getElem?, shape_getElem?, declare, List.getElem?_modify]
  cases t.scopes[k]? with
  | none => simp
  | some scope =>
    by_cases here : t.receiver id kind = k
    · simp [here, kept]
    · simp [here]

theorem receiver_of_shape_eq {t t' : ScopeTree} (same : t'.shape = t.shape) (id : Nat)
    (kind : BindingKind) : t'.receiver id kind = t.receiver id kind := by
  cases kind with
  | var => exact functionScope_of_shape_eq same id
  | _ => rfl

theorem declaresAt_declare (t : ScopeTree) (id : Nat) (name : String) (kind : BindingKind)
    (k : Nat) (other : String) :
    (t.declare id name kind).declaresAt k other = true ↔
      t.declaresAt k other = true ∨
        k = t.receiver id kind ∧ k < t.scopes.length ∧ other = name := by
  rw [declaresAt, declaresAt, declare, List.getElem?_modify]
  rcases Nat.lt_or_ge k t.scopes.length with lt | ge
  · rw [List.getElem?_eq_getElem lt]
    by_cases here : t.receiver id kind = k
    · simp [here, lt, Scope.declares_declare]
    · simp [here, Ne.symm here]
  · simp [Nat.not_lt.2 ge]

theorem shape_declareAll (t : ScopeTree) (id : Nat) (names : List String) (kind : BindingKind) :
    (t.declareAll id names kind).shape = t.shape := by
  induction names generalizing t with
  | nil => rfl
  | cons name rest ih => exact (ih (t.declare id name kind)).trans (shape_declare t id name kind)

theorem declaresAt_declareAll (t : ScopeTree) (id : Nat) (names : List String)
    (kind : BindingKind) (k : Nat) (other : String) :
    (t.declareAll id names kind).declaresAt k other = true ↔
      t.declaresAt k other = true ∨
        k = t.receiver id kind ∧ k < t.scopes.length ∧ other ∈ names := by
  induction names generalizing t with
  | nil => simp [declareAll]
  | cons name rest ih =>
    have same := shape_declare t id name kind
    have length : (t.declare id name kind).scopes.length = t.scopes.length := by
      rw [← length_shape, ← length_shape, same]
    show ((t.declare id name kind).declareAll id rest kind).declaresAt k other = true ↔ _
    rw [ih, declaresAt_declare, receiver_of_shape_eq same, length, List.mem_cons]
    grind

@[simp] theorem nodes_declareAll (t : ScopeTree) (id : Nat) (names : List String)
    (kind : BindingKind) : (t.declareAll id names kind).nodes = t.nodes := by
  induction names generalizing t with
  | nil => rfl
  | cons name rest ih => exact ih (t.declare id name kind)

/-! ## Opening scopes -/

theorem shape_openScope (t : ScopeTree) (parent : Nat) (isFunction : Bool) (node : Nat) :
    (t.openScope parent isFunction node).shape = t.shape ++ [(some parent, isFunction)] := by
  simp [shape, openScope]

/-- A new scope declares nothing and leaves the other scopes alone. -/
theorem declaresAt_openScope (t : ScopeTree) (parent : Nat) (isFunction : Bool) (node k : Nat)
    (name : String) :
    (t.openScope parent isFunction node).declaresAt k name = t.declaresAt k name := by
  simp only [declaresAt, openScope]
  rcases Nat.lt_trichotomy k t.scopes.length with lt | rfl | gt
  · rw [List.getElem?_append_left lt]
  · simp [Scope.declares]
  · rw [List.getElem?_eq_none (by simp; omega), List.getElem?_eq_none (by omega)]

theorem Ordered.openScope {t : ScopeTree} (h : t.Ordered) {parent : Nat} (isFunction : Bool)
    (node : Nat) (lt : parent < t.scopes.length) :
    (t.openScope parent isFunction node).Ordered where
  root := by
    rw [shape_openScope, List.getElem?_append_left (by simpa using h.length_pos)]
    exact h.root
  nested := by
    intro id pos inside
    rw [shape_openScope] at inside ⊢
    simp only [List.length_append, List.length_singleton, length_shape] at inside
    rcases Nat.lt_or_ge id t.scopes.length with old | new
    · rw [List.getElem?_append_left (by simpa using old)]
      exact h.nested pos (by simpa using old)
    · have last : id = t.scopes.length := by omega
      subst last
      refine ⟨parent, isFunction, ?_, lt⟩
      rw [List.getElem?_append_right (by simp)]
      simp

end ScopeTree

end ReactiveMarkup
