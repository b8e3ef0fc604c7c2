import Mathlib.Order.Bounds.Defs
import ReactiveMarkup.Proofs.ElidedFunction

/-!
# What a server module needs, and what it leaves out

The names that rendering needs are the least set that suffices (`Suffices`): it holds what is read
at once, and of each top-level function that it holds, what the function reads. The repetitions that
find this set always end, and they end with the same set in whatever order, and however often, the
functions are listed.

Elision then deletes bindings and nothing else. The relation `Elides` says this statement by
statement; it relates a script to one other script only, which is the one that elision gives
(`leastElision`).
-/

namespace ReactiveMarkup

open Script (Expression Statement Declarator DeclarationKind)

/-- Whether an expression is a function inside any number of parentheses. -/
inductive Script.Expression.WrapsFunction : Expression → Prop
  | function (f : Script.Function) : WrapsFunction (.function f)
  | parenthesized {inner : Expression} (wraps : WrapsFunction inner) :
    WrapsFunction (.parenthesized inner)

theorem Script.Expression.isFunction_iff {e : Expression} :
    e.isFunction = true ↔ e.WrapsFunction := by
  fun_induction Expression.isFunction e with
  | case1 f => exact iff_of_true rfl (.function f)
  | case2 inner ih =>
    rw [ih]
    constructor
    · exact .parenthesized
    · rintro (_ | wraps)
      exact wraps
  | case3 e noFunction noParentheses =>
    refine iff_of_false Bool.false_ne_true fun wraps => ?_
    cases wraps with
    | function f => exact noFunction f rfl
    | parenthesized _ => exact noParentheses _ rfl

namespace Server

/-! ## The least set that suffices -/

/-- Whether a set of names holds everything that rendering can come to read. -/
structure Suffices (script : List Statement) (analysis : Analysis) (names : Set String) :
    Prop where
  /-- What the statements read that run as a whole. -/
  statements : ∀ s ∈ script, runsWhole s = true → ∀ name ∈ s.references, name ∈ names
  /-- What the initial values read that are no functions. -/
  initial : ∀ d init, Declared script d → d.init = some init → ¬ init.WrapsFunction →
    ∀ name ∈ init.references, name ∈ names
  template : ∀ name ∈ analysis.usedInTemplate, name ∈ names
  reactive : ∀ d ∈ analysis.declarations, ∀ name ∈ d.body.references, name ∈ names
  /-- What a function statement reads, if the set holds its name. -/
  function : ∀ f own, .function f ∈ script → f.signature.name = some own → own ∈ names →
    ∀ name ∈ f.references, name ∈ names
  /-- What the function of a binding reads, if the set holds one of the names that it binds. -/
  binding : ∀ d init own, Declared script d → d.init = some init → init.WrapsFunction →
    own ∈ d.pattern.names → own ∈ names → ∀ name ∈ init.references, name ∈ names

section

variable {script : List Statement} {analysis : Analysis}

theorem mem_readAtOnce {name : String} :
    name ∈ readAtOnce script analysis ↔
      name ∈ (TopLevel.ofScript script).eager ∨ name ∈ analysis.usedInTemplate ∨
        ∃ d ∈ analysis.declarations, name ∈ d.body.references := by
  rw [readAtOnce, NameSet.mem_insertAll, NameSet.mem_insertAll, NameSet.mem_ofList,
    List.mem_flatMap, ← NameSet.mem_def, or_comm,
    or_comm (b := name ∈ (TopLevel.ofScript script).eager), or_assoc]

/-- A set suffices if it holds what is read at once and is closed under the functions. -/
theorem suffices_iff {names : Set String} :
    Suffices script analysis names ↔
      (∀ name ∈ readAtOnce script analysis, name ∈ names) ∧
        ∀ f ∈ (TopLevel.ofScript script).functions, f.1 ∈ names → ∀ name ∈ f.2, name ∈ names := by
  constructor
  · rintro enough
    refine ⟨fun name mem => ?_, fun f entry reached name read => ?_⟩
    · rcases mem_readAtOnce.1 mem with eager | template | ⟨d, mem, read⟩
      · rcases mem_eager_iff.1 eager with
          ⟨s, mem, whole, read⟩ | ⟨d, init, declared, has, plain, read⟩
        · exact enough.statements s mem whole name read
        · refine enough.initial d init declared has (fun wraps => ?_) name read
          rw [Script.Expression.isFunction_iff.2 wraps] at plain
          cases plain
      · exact enough.template name template
      · exact enough.reactive d mem name read
    · rcases mem_functions_iff.1 entry with
        ⟨g, mem, named, reads⟩ | ⟨d, init, declared, has, function, named, reads⟩
      · exact enough.function g f.1 mem named reached name (reads ▸ read)
      · exact enough.binding d init f.1 declared has (Script.Expression.isFunction_iff.1 function)
          named reached name (reads ▸ read)
  · rintro ⟨start, step⟩
    constructor
    · intro s mem whole name read
      exact start name (mem_readAtOnce.2 (.inl (mem_eager_iff.2 (.inl ⟨s, mem, whole, read⟩))))
    · intro d init declared has plain name read
      have plain : init.isFunction = false :=
        Bool.eq_false_iff.2 fun function => plain (Script.Expression.isFunction_iff.1 function)
      exact start name (mem_readAtOnce.2
        (.inl (mem_eager_iff.2 (.inr ⟨d, init, declared, has, plain, read⟩))))
    · exact fun name mem => start name (mem_readAtOnce.2 (.inr (.inl mem)))
    · exact fun d mem name read => start name (mem_readAtOnce.2 (.inr (.inr ⟨d, mem, read⟩)))
    · intro f own mem named reached
      exact step (own, f.references) (mem_functions_iff.2 (.inl ⟨f, mem, named, rfl⟩)) reached
    · intro d init own declared has wraps named reached
      exact step (own, init.references) (mem_functions_iff.2
        (.inr ⟨d, init, declared, has, Script.Expression.isFunction_iff.2 wraps, named, rfl⟩))
        reached

theorem isLeast_reachableNames (script : List Statement) (analysis : Analysis) :
    IsLeast {names | Suffices script analysis names}
      {name | name ∈ reachableNames script analysis} := by
  have repeats := repeatsTo_reachableNames script analysis
  constructor
  · exact suffices_iff.2 ⟨fun name => repeats.mem_of_mem, repeats.closed⟩
  · intro names enough name mem
    obtain ⟨start, step⟩ := suffices_iff.1 enough
    induction repeats.reaches mem with
    | start read => exact start _ read
    | through entry reached read ih => exact step _ entry (ih (repeats.mem_iff.2 reached)) _ read

/-! ## The order of the functions -/

/-- What can be reached depends on which functions there are, not on their order. -/
theorem Reaches.of_mem_imp {functions functions' : List (String × List String)} {start : NameSet}
    (part : ∀ f ∈ functions, f ∈ functions') {name : String}
    (reaches : Reaches functions start name) : Reaches functions' start name := by
  induction reaches with
  | start mem => exact .start mem
  | through entry _ read ih => exact .through (part _ entry) ih read

/-- The repetitions end with one set, whatever the order of the functions. -/
theorem repeatsTo_iff {functions : List (String × List String)}
    (same : ∀ f, f ∈ functions ↔ f ∈ (TopLevel.ofScript script).functions) (result : NameSet) :
    RepeatsTo functions (readAtOnce script analysis) result ↔
      result = reachableNames script analysis := by
  have unique : ∀ {result}, RepeatsTo functions (readAtOnce script analysis) result →
      result = reachableNames script analysis := fun repeats => NameSet.ext_mem fun name => by
    rw [repeats.mem_iff, mem_reachableNames_iff]
    exact ⟨.of_mem_imp fun f => (same f).1, .of_mem_imp fun f => (same f).2⟩
  constructor
  · exact unique
  · rintro rfl
    have ends := repeatsTo_start functions (readAtOnce script analysis)
    exact unique ends ▸ ends

end

/-! ## What is deleted -/

/-- Deletes from a list of bindings those that are dropped, and no others. -/
inductive Thins (dropped : Declarator → Prop) : List Declarator → List Declarator → Prop
  | nil : Thins dropped [] []
  | drop {d : Declarator} {items left : List Declarator} (drops : dropped d)
      (behind : Thins dropped items left) : Thins dropped (d :: items) left
  | keep {d : Declarator} {items left : List Declarator} (keeps : ¬ dropped d)
      (behind : Thins dropped items left) : Thins dropped (d :: items) (d :: left)

/-- Deletes from a script the bindings that are dropped, and the declarations that have no binding
left. -/
inductive Elides (dropped : Declarator → Prop) : List Statement → List Statement → Prop
  | nil : Elides dropped [] []
  | other {s : Statement} {rest left : List Statement}
      (noDeclaration : ∀ kind items, s ≠ .declaration kind items)
      (behind : Elides dropped rest left) : Elides dropped (s :: rest) (s :: left)
  | thinned {kind : DeclarationKind} {items kept : List Declarator} {rest left : List Statement}
      (thins : Thins dropped items kept) (some : kept ≠ []) (behind : Elides dropped rest left) :
    Elides dropped (.declaration kind items :: rest) (.declaration kind kept :: left)
  | emptied {kind : DeclarationKind} {items : List Declarator} {rest left : List Statement}
      (thins : Thins dropped items []) (behind : Elides dropped rest left) :
    Elides dropped (.declaration kind items :: rest) left

/-- Whether a binding is a function none of whose names is in a set. -/
def Unneeded (needed : NameSet) (d : Declarator) : Prop :=
  (∃ init, d.init = some init ∧ init.WrapsFunction) ∧ ∀ name ∈ d.pattern.names, name ∉ needed

section

variable {needed : NameSet}

theorem isKept_iff_not_unneeded {d : Declarator} :
    isKept needed d = true ↔ ¬ Unneeded needed d := by
  have function : d.init.any Expression.isFunction = true ↔
      ∃ init, d.init = some init ∧ init.WrapsFunction := by
    rw [Option.any_eq_true]
    simp only [Script.Expression.isFunction_iff]
  rw [isKept_iff, Unneeded, ← function, not_and_or, Bool.not_eq_true, not_forall]
  simp

theorem thins_iff {items left : List Declarator} :
    Thins (Unneeded needed) items left ↔ left = items.filter (isKept needed) := by
  constructor
  · intro thins
    induction thins with
    | nil => rfl
    | drop drops _ ih =>
      rw [List.filter_cons_of_neg (fun kept => isKept_iff_not_unneeded.1 kept drops), ih]
    | keep keeps _ ih => rw [List.filter_cons_of_pos (isKept_iff_not_unneeded.2 keeps), ih]
  · rintro rfl
    induction items with
    | nil => exact .nil
    | cons d rest ih =>
      by_cases kept : isKept needed d = true
      · rw [List.filter_cons_of_pos kept]
        exact .keep (isKept_iff_not_unneeded.1 kept) ih
      · rw [List.filter_cons_of_neg kept]
        exact .drop (not_not.1 fun keeps => kept (isKept_iff_not_unneeded.2 keeps)) ih

/-- A script is related to the one that is left when each statement is thinned out. -/
theorem elides_iff {script left : List Statement} :
    Elides (Unneeded needed) script left ↔ left = script.filterMap (elideStatement needed) := by
  -- only declarations are thinned out
  have whole : ∀ {s : Statement}, (∀ kind items, s ≠ .declaration kind items) →
      elideStatement needed s = some s := by
    intro s noDeclaration
    cases s with
    | declaration kind items => exact absurd rfl (noDeclaration kind items)
    | _ => rfl
  constructor
  · intro elides
    induction elides with
    | nil => rfl
    | other noDeclaration _ ih => rw [List.filterMap_cons_some (whole noDeclaration), ih]
    | thinned thins some _ ih =>
      obtain rfl := thins_iff.1 thins
      rw [List.filterMap_cons_some (by rw [elideStatement_declaration, if_neg some]), ih]
    | emptied thins _ ih =>
      have empty := (thins_iff.1 thins).symm
      rw [List.filterMap_cons_none (by rw [elideStatement_declaration, if_pos empty]), ih]
  · rintro rfl
    induction script with
    | nil => exact .nil
    | cons s rest ih =>
      by_cases declaration : ∃ kind items, s = .declaration kind items
      · obtain ⟨kind, items, rfl⟩ := declaration
        by_cases empty : items.filter (isKept needed) = []
        · rw [List.filterMap_cons_none (by rw [elideStatement_declaration, if_pos empty])]
          exact .emptied (thins_iff.2 empty.symm) ih
        · rw [List.filterMap_cons_some (by rw [elideStatement_declaration, if_neg empty])]
          exact .thinned (thins_iff.2 rfl) empty ih
      · have noDeclaration : ∀ kind items, s ≠ .declaration kind items :=
          fun kind items eq => declaration ⟨kind, items, eq⟩
        rw [List.filterMap_cons_some (whole noDeclaration)]
        exact .other noDeclaration ih

end

/-- What it means that elision keeps what is needed and deletes nothing else. -/
structure LeastElision (script : List Statement) (analysis : Analysis) : Prop where
  /-- The repetitions end, with the same set in whatever order the functions are listed. -/
  ends : ∀ functions : List (String × List String),
    (∀ f, f ∈ functions ↔ f ∈ (TopLevel.ofScript script).functions) → ∀ result,
      (RepeatsTo functions (readAtOnce script analysis) result ↔
        result = reachableNames script analysis)
  /-- This is the least set that suffices. -/
  least : IsLeast {names | Suffices script analysis names}
    {name | name ∈ reachableNames script analysis}
  /-- The functions without a name in it are deleted, with the declarations that have no other
  binding, and nothing else. -/
  leaves : ∀ left, Elides (Unneeded (reachableNames script analysis)) script left ↔
    left = elideUnused script analysis

/-- **Elision finds the least set of needed names and removes nothing else**, for every script and
every analysis. -/
theorem leastElision (script : List Statement) (analysis : Analysis) :
    LeastElision script analysis where
  ends _ same result := repeatsTo_iff same result
  least := isLeast_reachableNames script analysis
  leaves _ := elides_iff

end Server

end ReactiveMarkup
