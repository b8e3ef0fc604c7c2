import ReactiveMarkup.Proofs.ReactiveAssignment
import ReactiveMarkup.Proofs.ScheduleOrder
import ReactiveMarkup.Reactivity.Analysis

/-!
# The analysis loses no statement

The analysis takes the reactive declarations out of a script and puts them into another order. Each
of them keeps its place in the script, so the script can be put together again: `putBack` fills the
places one by one, with the declaration of this place if there is one and with the next of the other
statements otherwise. It looks a declaration up by its place, hence the order in which they are
given does not matter, and what it needs to know of them is only that they describe the reactive
statements of the script (`Describes`).
-/

namespace ReactiveMarkup

open Script (Statement)

/-- Fills some places, which are counted from `index` on: those of reactive declarations with these,
under the reactive label, and the remaining ones with the other statements in order. -/
def putBack (declarations : List ReactiveDeclaration) : Nat → Nat → List Statement → List Statement
  | 0, _, _ => []
  | places + 1, index, others =>
    match declarations.find? (·.sourceIndex = index) with
    | some d => .labeled reactiveLabel d.body :: putBack declarations places (index + 1) others
    | none =>
      match others with
      | s :: others => s :: putBack declarations places (index + 1) others
      | [] => []

/-- The script of which some declarations and other statements are all. -/
def reassemble (declarations : List ReactiveDeclaration) (others : List Statement) :
    List Statement :=
  putBack declarations (declarations.length + others.length) 0 others

/-- Whether some declarations are what stands under the reactive label in a script, each at its
place. -/
def Describes (declarations : List ReactiveDeclaration) (script : List Statement) : Prop :=
  ∀ i body, script[i]? = some (.labeled reactiveLabel body) ↔
    ∃ d ∈ declarations, d.sourceIndex = i ∧ d.body = body

/-! ## Filling the places -/

section

variable {declarations : List ReactiveDeclaration} {script : List Statement}

/-- At the place of a reactive statement, this statement is found. -/
theorem Describes.find?_eq_some (describes : Describes declarations script) {i : Nat}
    {body : Statement} (place : script[i]? = some (.labeled reactiveLabel body)) :
    ∃ d, declarations.find? (·.sourceIndex = i) = some d ∧ d.body = body := by
  obtain ⟨d, mem, index, -⟩ := (describes i body).1 place
  have isFound : (declarations.find? (·.sourceIndex = i)).isSome = true :=
    List.find?_isSome.2 ⟨d, mem, decide_eq_true index⟩
  obtain ⟨found, search⟩ := Option.isSome_iff_exists.1 isFound
  have index' : found.sourceIndex = i := by simpa using List.find?_some search
  have place' := (describes i found.body).2 ⟨found, List.mem_of_find?_eq_some search, index', rfl⟩
  rw [place, Option.some.injEq, Statement.labeled.injEq] at place'
  exact ⟨found, search, place'.2.symm⟩

/-- At the place of another statement, no declaration is found. -/
theorem Describes.find?_eq_none (describes : Describes declarations script) {i : Nat}
    {s : Statement} (place : script[i]? = some s) (plain : s.isReactive = false) :
    declarations.find? (·.sourceIndex = i) = none := by
  refine List.find?_eq_none.2 fun d mem index => ?_
  have place' := (describes i d.body).2 ⟨d, mem, of_decide_eq_true index, rfl⟩
  rw [place, Option.some.injEq] at place'
  rw [Script.Statement.isReactive_iff.2 ⟨d.body, place'⟩] at plain
  cases plain

/-- The places behind any lead of a script are filled with what stands there. -/
theorem Describes.putBack_eq (describes : Describes declarations script) (lead : List Statement)
    {rest : List Statement} (split : script = lead ++ rest) :
    putBack declarations rest.length lead.length (rest.filter fun s => !s.isReactive) = rest := by
  induction rest generalizing lead with
  | nil => rfl
  | cons s rest ih =>
    have place : script[lead.length]? = some s := by simp [split]
    have behind := ih (lead ++ [s]) (by simp [split])
    rw [List.length_append, List.length_singleton] at behind
    cases reactive : s.isReactive with
    | true =>
      obtain ⟨body, rfl⟩ := Script.Statement.isReactive_iff.1 reactive
      obtain ⟨d, search, rfl⟩ := describes.find?_eq_some place
      simp [putBack, search, reactive, behind]
    | false =>
      simp [putBack, describes.find?_eq_none place reactive, reactive, behind]

end

/-! ## What is taken out -/

theorem length_extractFrom (index : Nat) (script : List Statement) :
    (extractFrom index script).declarations.length + (extractFrom index script).residue.length =
      script.length := by
  induction script generalizing index with
  | nil => rfl
  | cons s rest ih =>
    have others := ih (index + 1)
    cases reactive : s.isReactive with
    | true =>
      obtain ⟨body, rfl⟩ := Script.Statement.isReactive_iff.1 reactive
      rw [extractFrom_of_reactive]
      simp only [List.length_cons]
      omega
    | false =>
      rw [extractFrom_of_not_reactive index reactive]
      simp only [List.length_cons]
      omega

/-- The declarations are taken out in the order of their places. -/
theorem ascending_extractFrom (index : Nat) (script : List Statement) :
    (extractFrom index script).declarations.Pairwise fun d e => d.sourceIndex < e.sourceIndex := by
  induction script generalizing index with
  | nil => exact .nil
  | cons s rest ih =>
    cases reactive : s.isReactive with
    | true =>
      obtain ⟨body, rfl⟩ := Script.Statement.isReactive_iff.1 reactive
      rw [extractFrom_of_reactive]
      refine .cons (fun d mem => ?_) (ih (index + 1))
      obtain ⟨i, _, -, rfl⟩ := mem_declarations_iff.1 mem
      show index < index + 1 + i
      omega
    | false =>
      rw [extractFrom_of_not_reactive index reactive]
      exact ih (index + 1)

theorem describes_extractReactive (script : List Statement) :
    Describes (extractReactive script).declarations script := by
  intro i body
  constructor
  · intro place
    exact ⟨.ofBody (0 + i) body, mem_declarations_iff.2 ⟨i, body, place, rfl⟩, Nat.zero_add i, rfl⟩
  · rintro ⟨d, mem, rfl, rfl⟩
    obtain ⟨i, body, place, rfl⟩ := mem_declarations_iff.1 mem
    rwa [← Nat.zero_add i] at place

theorem Describes.perm {declarations declarations' : List ReactiveDeclaration}
    {script : List Statement} (describes : Describes declarations script)
    (perm : declarations'.Perm declarations) : Describes declarations' script := by
  intro i body
  simp only [describes i body, perm.mem_iff]

/-- **The analysis loses no statement.** The reactive declarations that it returns have different
places in the script, and put back there, between the other statements, they give the script that
was analyzed. They are the statements with the reactive label at the top level of the script, each
with the statement under the label as it was; all other statements are left as they were, in
order. -/
theorem analyze_losesNoStatement (component : Component) (marker : String) :
    let analyzed := component.analyze marker
    let declarations := analyzed.analysis.declarations
    (declarations.map ReactiveDeclaration.sourceIndex).Nodup ∧
      reassemble declarations analyzed.component.script = component.script ∧
      Describes declarations component.script ∧
      analyzed.component =
        { component with script := component.script.filter fun s => !s.isReactive } := by
  intro analyzed declarations
  have perm : declarations.Perm (extractReactive component.script).declarations :=
    orderReactive_perm _
  have describes : Describes declarations component.script :=
    (describes_extractReactive component.script).perm perm
  have residue : analyzed.component.script = component.script.filter fun s => !s.isReactive :=
    residue_eq 0 component.script
  refine ⟨?_, ?_, describes, ?_⟩
  · -- ascending places are different, and stay so in any order
    refine (perm.map _).nodup_iff.2 (List.pairwise_map.2 ?_)
    exact (ascending_extractFrom 0 component.script).imp fun less => Nat.ne_of_lt less
  · have places : declarations.length + analyzed.component.script.length =
        component.script.length := by
      rw [perm.length_eq]
      exact length_extractFrom 0 component.script
    rw [reassemble, places, residue]
    exact describes.putBack_eq [] rfl
  · exact congrArg (fun script => { component with script := script }) residue

end ReactiveMarkup
