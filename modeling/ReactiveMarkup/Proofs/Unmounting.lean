import ReactiveMarkup.Emission.Printer
import ReactiveMarkup.Proofs.DocumentModel
import ReactiveMarkup.Proofs.Lifecycle

/-!
# Destroying undoes creating

`undo?` turns the statement that mounts a node or adds a listener into the one that takes it back.
The method `destroy` consists of what undoes the statements of `create`, in reverse order
(`mirrored_fragmentsDraft`). The pieces of a draft undo themselves one after the other: `Undoes` is
what holds of each piece, and it holds of neighbouring pieces together (`Undoes.append`).
-/

namespace ReactiveMarkup.Document

open Emission (Statement Expression)
open Client

/-! ## Each statement and what undoes it -/

/-- The statement that undoes a mount or the addition of a listener. -/
def undo? : Statement → Option Statement
  | .expression (.call (.member object "appendChild") arguments) =>
    some (.expression (.call (.member object "removeChild") arguments))
  | .expression (.call (.member object "addEventListener") arguments) =>
    some (.expression (.call (.member object "removeEventListener") arguments))
  | .guarded (.unary "!" (.identifier test)) [s] =>
    if test = Vocabulary.hydrate then undo? s else none
  | _ => none
termination_by structural s => s

/-- Whether what a draft has for `destroy` undoes what it has for `create`. -/
def Mirrored (x : Draft) : Prop := x.create.filterMap undo? = x.destroy

theorem Mirrored.append {x y : Draft} (hx : Mirrored x) (hy : Mirrored y) : Mirrored (x ++ y) := by
  show (x.create ++ y.create).filterMap undo? = x.destroy ++ y.destroy
  rw [List.filterMap_append, hx, hy]

theorem mirrored_empty : Mirrored .empty := rfl

section

variable (options : Options) (analysis : Analysis)

theorem undo?_assignTo (name : String) (e : Expression) : undo? (assignTo name e) = none := rfl

theorem mirrored_nodeDraft (place : Place) (node : String) (fresh : Expression) :
    Mirrored (nodeDraft options place node fresh) := by
  simp only [Mirrored, nodeDraft, mount, List.filterMap_cons, undo?_assignTo]
  cases options.hydratable <;> rfl

theorem mirrored_valueDraft (node : String) (a : Attribute) :
    Mirrored (valueDraft analysis node a) := rfl

theorem mirrored_eventDraft (element node event : String) (a : Attribute) (count : Nat) :
    Mirrored (eventDraft analysis element node event a count).1 := by
  unfold eventDraft
  split
  · rfl
  · exact Mirrored.append (x := { Draft.empty with bindings := _, create := [assignTo _ _] })
      rfl rfl

theorem mirrored_attributesDraft (element node : String) (attributes : List Attribute)
    (count : Nat) :
    Mirrored (attributesDraft options analysis element node attributes count).1 := by
  induction attributes generalizing count with
  | nil => exact mirrored_empty
  | cons a rest ih =>
    rw [attributesDraft]
    refine Mirrored.append ?_ (ih _)
    cases a.event? options.eventMarker with
    | none => exact mirrored_valueDraft analysis node a
    | some event => exact mirrored_eventDraft analysis element node event a count

/-- What some fragments have for `destroy` undoes what they have for `create`. -/
theorem mirrored_fragmentsDraft (fs : List Fragment) (place : Place) (count : Nat) :
    Mirrored (fragmentsDraft options analysis place count fs).1 := by
  induction fs using Fragment.induction generalizing place count with
  | nil => exact mirrored_empty
  | cons f rest inner behind =>
    rw [fragmentsDraft]
    refine Mirrored.append ?_ (behind _ _)
    cases f with
    | element name attributes children offset =>
      rw [fragmentDraft]
      refine Mirrored.append (Mirrored.append ?_ ?_) (inner _ _)
      · exact mirrored_nodeDraft options place _ _
      · exact mirrored_attributesDraft options analysis name _ attributes _
    | text value => exact mirrored_nodeDraft options place _ _
    | expression e => exact (mirrored_nodeDraft options place _ _).append rfl

end

/-! ## Pieces that undo themselves -/

variable {V : Type}

/-- Whether a document has come back to another one: child lists are the same, there are no more
listeners, and the names from before hold the same nodes. -/
structure Like (count : Nat) (w u : World V) : Prop where
  names : ∀ name, Older count name → u.names name = w.names name
  children : ∀ n, (u.node n).children = (w.node n).children
  listeners : ∀ n, (u.node n).listeners ⊆ (w.node n).listeners

/-- What it means that a document, changed once, has been changed back. -/
structure Restored (w w' w'' : World V) : Prop where
  mounted : w'.mounted = true
  unmounted : w''.mounted = false
  /-- Every node that was there, the target among them, has the children that it had. -/
  children : ∀ n < w.size, (w''.node n).children = (w.node n).children
  /-- Nodes that were made have neither children nor listeners. -/
  bare : ∀ n, w.size ≤ n → n < w'.size →
    (w''.node n).children = [] ∧ (w''.node n).listeners = []

theorem Like.restored {count : Nat} {w w' u : World V} (like : Like count w u) (sound : w.Sound)
    (mounted : w'.mounted = true) : Restored w w' { u with mounted := false } where
  mounted := mounted
  unmounted := rfl
  children n _ := like.children n
  bare n le _ := by
    obtain ⟨children, listeners⟩ := sound.unmade n le
    refine ⟨(like.children n).trans children, List.subset_nil.1 ?_⟩
    rw [← listeners]
    exact like.listeners n

variable [DecidableEq V] (value : Expression → V)

/-- What holds of a piece of a draft, with the bindings behind the first `count` up to `count'`,
that turns one document into another: however the document that it made is come back to, the piece
goes on to take back what it did. -/
structure Undoes (count count' : Nat) (x : Draft) (w w' : World V) : Prop where
  created : replay value x.create w = some w'
  sound : w'.Sound
  numbered : count ≤ count'
  kept : ∀ name, Older count name → w'.names name = w.names name
  undone : ∀ u, Like count' w' u →
    ∃ u', replay value x.destroy.reverse u = some u' ∧ Like count w u'

namespace Undoes

variable {value} {count count₁ count' : Nat} {x y : Draft} {w w₁ w' : World V}

theorem append (first : Undoes value count count₁ x w w₁)
    (second : Undoes value count₁ count' y w₁ w') :
    Undoes value count count' (x ++ y) w w' where
  created := replay_of_append value first.created second.created
  sound := second.sound
  numbered := Nat.le_trans first.numbered second.numbered
  kept name older :=
    (second.kept name (older.mono first.numbered)).trans (first.kept name older)
  undone u like := by
    obtain ⟨u₁, undone₁, like₁⟩ := second.undone u like
    obtain ⟨u', undone', like'⟩ := first.undone u₁ like₁
    refine ⟨u', ?_, like'⟩
    show replay value (x.destroy ++ y.destroy).reverse u = some u'
    rw [List.reverse_append]
    exact replay_of_append value undone₁ undone'

/-- A piece that changes nothing which is to be taken back. -/
theorem of_like (created : replay value x.create w = some w') (sound : w'.Sound)
    (numbered : count ≤ count')
    (kept : ∀ name, Older count name → w'.names name = w.names name)
    (children : ∀ n, (w'.node n).children = (w.node n).children)
    (listeners : ∀ n, (w'.node n).listeners = (w.node n).listeners)
    (destroy : x.destroy = []) : Undoes value count count' x w w' where
  created := created
  sound := sound
  numbered := numbered
  kept := kept
  undone u like := by
    refine ⟨u, by rw [destroy]; rfl, ⟨fun name older => ?_, fun n => ?_, fun n => ?_⟩⟩
    · rw [like.names name (older.mono numbered), kept name older]
    · rw [like.children, children]
    · rw [← listeners]
      exact like.listeners n

end Undoes

section

variable (options : Options) (analysis : Analysis) {count : Nat} {w : World V}

theorem undoes_nodeDraft (place : Place) (stem : String) {fresh : Expression} {content : Content}
    {p : Nat} (sound : w.Sound) (held : w.names place.parent = some p)
    (older : Older count place.parent)
    (reads : assignment? (bindingName stem (count + 1)) fresh =
      some (.make (bindingName stem (count + 1)) content)) :
    Undoes value count (count + 1)
      (nodeDraft options place (bindingName stem (count + 1)) fresh) w
      (w.mount p (bindingName stem (count + 1)) content) := by
  have made : p < w.size := sound.name_lt _ _ held
  have kept : ∀ name, Older count name →
      (w.mount p (bindingName stem (count + 1)) content).names name = w.names name :=
    fun name older => World.names_mount_of_ne _ _ (older.ne_next stem)
  refine ⟨replay_nodeDraft options value place sound held (older.ne_next stem) reads,
    sound.mount made _ _, Nat.le_succ count, kept, fun u like => ?_⟩
  -- when the piece is undone, the names still hold what they held when it was done
  have parent : u.names place.parent = some p := by
    rw [like.names _ (older.mono (Nat.le_succ count)), kept _ older, held]
  have self : u.names (bindingName stem (count + 1)) = some w.size := by
    rw [like.names _ (.bindingName stem (count + 1)), World.names_mount_self]
  have child : (u.node p).children = (w.node p).children ++ [w.size] := by
    rw [like.children, World.node_mount_parent _ _ made]
    rfl
  refine ⟨u.modify p (Node.release w.size), ?_, ⟨fun name older => ?_, fun n => ?_, fun n => ?_⟩⟩
  · simp [nodeDraft, replay, action?_removeChild, Action.perform, parent, self, World.remove?,
      child]
  · rw [← kept name older]
    exact like.names name (older.mono (Nat.le_succ count))
  · by_cases same : n = p
    · subst same
      rw [World.node_modify, Node.release, child]
      simp [List.erase_append_right _ (sound.not_mem_children n)]
    · rw [World.node_modify_of_ne _ _ same, like.children]
      by_cases new : n = w.size
      · subst new
        rw [World.node_mount_self _ _ made, (sound.unmade _ (Nat.le_refl _)).1]
        rfl
      · rw [World.node_mount_of_ne _ _ same new]
  · rw [World.listeners_modify rfl, ← World.listeners_mount _ _ sound made]
    exact like.listeners n

theorem undoes_valueDraft {node : String} {n : Nat} (a : Attribute) (sound : w.Sound)
    (held : w.names node = some n) :
    Undoes value count count (valueDraft analysis node a) w
      (w.modify n (Node.set a.name (embed (notifyTemplate analysis a.value)))) := by
  exact .of_like (replay_valueDraft analysis value a held)
    (sound.modify (sound.name_lt _ _ held) rfl) (Nat.le_refl count) (fun _ _ => rfl)
    (World.children_modify rfl) (World.listeners_modify rfl) rfl

/-- A listener that is added and then removed is not there any more. -/
theorem subset_of_listen {node : Node V} {listeners : List (String × V)} {l : String × V}
    (subset : listeners ⊆ (node.listen l).listeners) :
    listeners.filter (· ≠ l) ⊆ node.listeners := by
  intro x mem
  obtain ⟨mem, ne⟩ := List.mem_filter.1 mem
  have before := subset mem
  unfold Node.listen at before
  split at before
  · exact before
  · rcases List.mem_append.1 before with before | before
    · exact before
    · exact absurd (List.mem_singleton.1 before) (of_decide_eq_true ne)

theorem undoes_eventDraft (element : String) {node : String} (event : String) {n : Nat}
    (a : Attribute) (sound : w.Sound) (held : w.names node = some n) (older : Older count node) :
    ∃ w', Undoes value count (eventDraft analysis element node event a count).2
      (eventDraft analysis element node event a count).1 w w' := by
  obtain ⟨w₁, handler, rebound, created, destroy⟩ :=
    replay_eventDraft analysis value element event a held older
  have numbered := (numbered_eventDraft analysis element node event a count).le
  have made : n < w₁.size := rebound.size ▸ sound.name_lt _ _ held
  refine ⟨_, created, (rebound.sound sound).modify made rfl, numbered, rebound.kept,
    fun u like => ?_⟩
  have self : u.names node = some n := by
    rw [like.names _ (older.mono numbered), ← held]
    exact rebound.kept node older
  refine ⟨u.modify n (Node.unlisten (event, value handler)), ?_,
    ⟨fun name older => ?_, fun m => ?_, fun m => ?_⟩⟩
  · simp [destroy, replay, action?_removeEventListener, Action.perform, self]
  · rw [← rebound.kept name older]
    exact like.names name (older.mono numbered)
  · rw [World.children_modify rfl, like.children, World.children_modify rfl, rebound.node]
  · have before := like.listeners m
    by_cases same : m = n
    · subst same
      rw [World.node_modify, rebound.node] at before
      rw [World.node_modify]
      exact subset_of_listen before
    · rw [World.node_modify_of_ne _ _ same, rebound.node] at before
      rwa [World.node_modify_of_ne _ _ same]

/-- Attributes undo themselves. -/
theorem undoes_attributesDraft (element : String) {node : String} {n : Nat}
    (attributes : List Attribute) (sound : w.Sound) (held : w.names node = some n)
    (older : Older count node) :
    ∃ w', Undoes value count (attributesDraft options analysis element node attributes count).2
      (attributesDraft options analysis element node attributes count).1 w w' := by
  induction attributes generalizing count w with
  | nil =>
    exact ⟨w, .of_like rfl sound (Nat.le_refl count) (fun _ _ => rfl) (fun _ => rfl) (fun _ => rfl)
      rfl⟩
  | cons a rest ih =>
    have followed : ∀ (first : Draft × Nat) (w₁ : World V),
        Undoes value count first.2 first.1 w w₁ →
        ∃ w', Undoes value count
          (attributesDraft options analysis element node rest first.2).2
          (first.1 ++ (attributesDraft options analysis element node rest first.2).1) w w' := by
      intro first w₁ undoes
      obtain ⟨w', others⟩ := ih undoes.sound ((undoes.kept node older).trans held)
        (older.mono undoes.numbered)
      exact ⟨w', undoes.append others⟩
    rw [attributesDraft]
    cases a.event? options.eventMarker with
    | none => exact followed (_, count) _ (undoes_valueDraft value analysis a sound held)
    | some event =>
      obtain ⟨w₁, undoes⟩ := undoes_eventDraft value analysis element event a sound held older
      exact followed _ w₁ undoes

/-- Fragments undo themselves. -/
theorem undoes_fragmentsDraft (fs : List Fragment) (place : Place) {p : Nat} (sound : w.Sound)
    (held : w.names place.parent = some p) (older : Older count place.parent) :
    ∃ w', Undoes value count (fragmentsDraft options analysis place count fs).2
      (fragmentsDraft options analysis place count fs).1 w w' := by
  induction fs using Fragment.induction generalizing place count w p with
  | nil =>
    exact ⟨w, .of_like rfl sound (Nat.le_refl count) (fun _ _ => rfl) (fun _ => rfl) (fun _ => rfl)
      rfl⟩
  | cons f rest inner behind =>
    rw [fragmentsDraft]
    -- a fragment is undone after those behind it, in a world like the one that they started from
    have first : ∃ w₁, Undoes value count (fragmentDraft options analysis place count f).2
        (fragmentDraft options analysis place count f).1 w w₁ := by
      cases f with
      | element name attributes children offset =>
        have node := undoes_nodeDraft value options place name sound held older
          (assignment?_createElement _ name)
        have self := w.names_mount_self (p := p) (bindingName name (count + 1)) (.element name)
        obtain ⟨w₁, own⟩ := undoes_attributesDraft value options analysis name attributes node.sound
          self (.bindingName name (count + 1))
        obtain ⟨w₂, children⟩ := inner ⟨bindingName name (count + 1), 0, place.depth + 1⟩ own.sound
          ((own.kept _ (.bindingName name (count + 1))).trans self)
          (.mono (.bindingName name (count + 1)) own.numbered)
        exact ⟨w₂, (node.append own).append children⟩
      | text text =>
        exact ⟨_, undoes_nodeDraft value options place "t" sound held older
          (assignment?_createTextNode _ _)⟩
      | expression e =>
        have node := undoes_nodeDraft value options place "t" sound held older
          (assignment?_createTextNode _ (embed (notifyTemplate analysis e)))
        refine ⟨_, node.append (.of_like rfl node.sound (Nat.le_refl _) (fun _ _ => rfl)
          (fun _ => rfl) (fun _ => rfl) rfl)⟩
    obtain ⟨w₁, first⟩ := first
    obtain ⟨w', others⟩ := behind { place with index := place.index + f.width } first.sound
      ((first.kept _ older).trans held) (older.mono first.numbered)
    exact ⟨w', first.append others⟩

end

/-! ## Modules -/

theorem replay_mounted (flag : Bool) (w : World V) :
    replay value [assignTo Vocabulary.mounted (.boolean flag)] w =
      some { w with mounted := flag } := rfl

/-- Creating and then destroying a component never fails, and changes the document back. -/
theorem exists_restored (component : Component) (analysis : Analysis) (options : Options)
    {w : World V} {target : Nat} (sound : w.Sound)
    (held : w.names Vocabulary.target = some target) :
    ∃ w' w'',
      replay value (methodBody "create" (generate component analysis options).code) w = some w' ∧
      replay value (methodBody "destroy" (generate component analysis options).code) w' =
        some w'' ∧
      Restored w w' w'' := by
  obtain ⟨w₁, undoes⟩ := undoes_fragmentsDraft value options analysis component.html
    ⟨Vocabulary.target, 0, 0⟩ sound held (.target 0)
  obtain ⟨u, undone, like⟩ := undoes.undone { w₁ with mounted := true }
    ⟨fun _ _ => rfl, fun _ => rfl, fun _ => List.Subset.refl _⟩
  refine ⟨{ w₁ with mounted := true }, { u with mounted := false }, ?_, ?_, like.restored sound rfl⟩
  · rw [methodBody_create]
    exact replay_of_append value undoes.created (replay_mounted value true w₁)
  · rw [methodBody_destroy]
    exact replay_of_append value undone (replay_mounted value false u)

/-- **Destroying undoes creating**: the method `destroy` is the reverse of the mounts and listeners
of `create`, each turned into what undoes it, and then unsets the mounted flag. So in every document
and for all values that handlers may have, creating a component on a target and then destroying it
fails nowhere, gives every node its children back, and leaves nothing on the nodes that were
made. -/
theorem destroy_undoes_create (component : Component) (analysis : Analysis) (options : Options) :
    methodBody "destroy" (generate component analysis options).code =
        ((methodBody "create"
          (generate component analysis options).code).filterMap undo?).reverse ++
          [assignTo Vocabulary.mounted (.boolean false)] ∧
      ∀ (V : Type) [DecidableEq V] (value : Expression → V) (w : World V) (target : Nat), w.Sound →
        w.names Vocabulary.target = some target → ∃ w' w'',
          replay value (methodBody "create" (generate component analysis options).code) w =
            some w' ∧
          replay value (methodBody "destroy" (generate component analysis options).code) w' =
            some w'' ∧
          Restored w w' w'' := by
  refine ⟨?_, fun V _ value w target sound held => ?_⟩
  · have mirrored : Mirrored (documentDraft options analysis component.html) :=
      mirrored_fragmentsDraft options analysis component.html _ 0
    rw [methodBody_create, methodBody_destroy, List.filterMap_append, mirrored]
    simp [undo?_assignTo]
  · exact exists_restored value component analysis options sound held

/-- A button with two handlers, one of them twice, and a text behind it. -/
def button : Component where
  html :=
    [.element "button"
        [⟨"on:click", .identifier "f"⟩, ⟨"class", .identifier "c"⟩,
          ⟨"on:click", .verbatim "() => g()" ["g"]⟩, ⟨"on:click", .identifier "f"⟩]
        [.expression (.identifier "n")] 0,
      .text "."]
  script := []

/-- A document whose target has a child. -/
def occupied : World String where
  size := 2
  node n :=
    if n = 0 then { Node.made (.element "main") with children := [1] } else .made (.element "p")
  names name := if name = Vocabulary.target then some 0 else none
  mounted := false

theorem sound_occupied : occupied.Sound where
  child_lt n c mem := by
    by_cases target : n = 0
    · have first : c = 1 := by simpa [occupied, target] using mem
      rw [first]
      decide
    · simp [occupied, target, Node.made] at mem
  name_lt name n held := by
    simp only [occupied, Option.ite_none_right_eq_some, Option.some.injEq] at held
    rw [← held.2]
    decide
  unmade n le := by
    have ne : n ≠ 0 := by
      rintro rfl
      exact absurd le (by decide)
    simp [occupied, ne, Node.made]

theorem destroy_undoes_create_button :
    (replay (·.print 0) (methodBody "create"
          (generate button (button.analyze "on:").analysis {}).code) occupied).map
        (fun w => ((w.node 0).children, (w.node 2).listeners)) =
      some ([1, 2, 4], [("click", "f"), ("click", "$$button_click_2")]) ∧
    ∃ w' w'',
      replay (·.print 0) (methodBody "create"
        (generate button (button.analyze "on:").analysis {}).code) occupied = some w' ∧
      replay (·.print 0) (methodBody "destroy"
        (generate button (button.analyze "on:").analysis {}).code) w' = some w'' ∧
      Restored occupied w' w'' :=
  ⟨by decide +kernel, (destroy_undoes_create button (button.analyze "on:").analysis {}).2 String
    (·.print 0) occupied 0 sound_occupied rfl⟩

end ReactiveMarkup.Document
