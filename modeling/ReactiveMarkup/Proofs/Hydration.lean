import Mathlib.Data.List.Nodup
import ReactiveMarkup.Compilation
import ReactiveMarkup.Proofs.BindingNumber
import ReactiveMarkup.Proofs.Lifecycle

/-!
# Hydration

A server module renders markup, and a client module adopts what was rendered. Both count the nodes
of a parent in the same way, so their lists of slots are equal (`hydration_fragmentsDraft`). And a
client module looks for each fragment in the right place: the statement that adopts its node asks
the binding of the element around it, which no other fragment has, for the child at the position
where its own node was rendered (`Aligned`).
-/

namespace ReactiveMarkup.Client

open Emission (Statement Expression)

/-! ## Rendered nodes -/

/-- A node that is rendered for the fragment with the given number among its siblings. -/
inductive RenderedNode
  | element (number : Nat)
  | text (number : Nat)
  /-- The marker behind a text. -/
  | comment (number : Nat)
deriving DecidableEq, Repr

/-- The nodes that are rendered for a fragment: an element, or a text with its marker. -/
def renderedNodes (number : Nat) : Fragment → List RenderedNode
  | .element .. => [.element number]
  | .text _ => [.text number, .comment number]
  | .expression _ => [.text number, .comment number]

/-- The node that stands for a fragment itself. -/
def renderedNode (number : Nat) : Fragment → RenderedNode
  | .element .. => .element number
  | .text _ => .text number
  | .expression _ => .text number

/-- The rendered children of a parent, whose fragments are counted from `number` on. -/
def renderedChildren (number : Nat) : List Fragment → List RenderedNode
  | [] => []
  | f :: rest => renderedNodes number f ++ renderedChildren (number + 1) rest

theorem renderedChildren_append (number : Nat) (before behind : List Fragment) :
    renderedChildren number (before ++ behind) =
      renderedChildren number before ++ renderedChildren (number + before.length) behind := by
  induction before generalizing number with
  | nil => rfl
  | cons f rest ih =>
    rw [List.cons_append, renderedChildren, ih, renderedChildren, List.length_cons,
      List.append_assoc, Nat.add_assoc, Nat.add_comm 1]

theorem length_renderedNodes (number : Nat) (f : Fragment) :
    (renderedNodes number f).length = f.width := by
  cases f <;> rfl

/-- A fragment's own node comes first among the nodes that are rendered for it. -/
theorem getElem?_renderedChildren (before : List Fragment) (f : Fragment)
    (behind : List Fragment) :
    (renderedChildren 0 (before ++ f :: behind))[(renderedChildren 0 before).length]? =
      some (renderedNode before.length f) := by
  rw [renderedChildren_append, List.getElem?_append_right (Nat.le_refl _), Nat.sub_self,
    renderedChildren, Nat.zero_add]
  cases f <;> rfl

/-! ## Adoptions -/

/-- What an adopting statement says: which binding takes which child of which parent, or else a
fresh node. -/
structure Adoption where
  binding : String
  parent : String
  index : Nat
  fresh : Expression

/-- The adoption `binding = $$hydrate ? parent.childNodes[index] : fresh;` of a statement. -/
def adoption? : Statement → Option Adoption
  | .expression (.assign (.identifier binding)
      (.conditional (.identifier test)
        (.index (.member (.identifier parent) property) (.number index)) fresh)) =>
    if test = Vocabulary.hydrate ∧ property = "childNodes" then
      some ⟨binding, parent, index, fresh⟩
    else none
  | _ => none

/-- The adoptions of some statements, in order. -/
def adoptions (code : List Statement) : List Adoption := code.filterMap adoption?

theorem adoptions_append (code code' : List Statement) :
    adoptions (code ++ code') = adoptions code ++ adoptions code' :=
  List.filterMap_append

@[simp] theorem create_append (x y : Draft) : (x ++ y).create = x.create ++ y.create := rfl

@[simp] theorem hydration_append (x y : Draft) :
    (x ++ y).hydration = x.hydration ++ y.hydration := rfl

section

variable {options : Options} (analysis : Analysis)

@[simp] theorem adoption?_invoke (object method : String) (arguments : List Expression) :
    adoption? (invoke object method arguments) = none := rfl

@[simp] theorem adoption?_assign_embed (name : String) (e : Script.Expression) :
    adoption? (assignTo name (embed e)) = none := by
  cases e <;> rfl

theorem adoptions_eventDraft (element node event : String) (a : Attribute) (count : Nat) :
    adoptions (eventDraft analysis element node event a count).1.create = [] := by
  unfold eventDraft
  split
  · rfl
  · simp [adoptions, listenerDraft]

theorem hydration_eventDraft (element node event : String) (a : Attribute) (count : Nat) :
    (eventDraft analysis element node event a count).1.hydration = [] := by
  unfold eventDraft
  split <;> rfl

/-- Attributes adopt nothing. -/
theorem adoptions_attributesDraft (options : Options) (element node : String)
    (attributes : List Attribute) (count : Nat) :
    adoptions (attributesDraft options analysis element node attributes count).1.create = [] := by
  induction attributes generalizing count with
  | nil => rfl
  | cons a rest ih =>
    rw [attributesDraft]
    cases a.event? options.eventMarker with
    | none => exact ih count
    | some event =>
      rw [create_append, adoptions_append, adoptions_eventDraft, ih]
      rfl

theorem hydration_attributesDraft (options : Options) (element node : String)
    (attributes : List Attribute) (count : Nat) :
    (attributesDraft options analysis element node attributes count).1.hydration = [] := by
  induction attributes generalizing count with
  | nil => rfl
  | cons a rest ih =>
    rw [attributesDraft]
    cases a.event? options.eventMarker with
    | none => exact ih count
    | some event =>
      rw [hydration_append, hydration_eventDraft, ih]
      rfl

theorem adoptions_nodeDraft (hydratable : options.hydratable = true) (place : Place)
    (node : String) (fresh : Expression) :
    adoptions (nodeDraft options place node fresh).create =
      [⟨node, place.parent, place.index, fresh⟩] := by
  simp [nodeDraft, adoptions, adoption?, assignTo, adoptOrCreate, mount, hydratable]

/-! ## Slots -/

/-- The client counts the rendered nodes as the server does. -/
theorem hydration_fragmentsDraft (hydratable : options.hydratable = true) (fs : List Fragment)
    (place : Place) (count : Nat) :
    (fragmentsDraft options analysis place count fs).1.hydration =
      Server.fragmentsSlots place.depth place.index fs := by
  induction fs using Fragment.induction generalizing place count with
  | nil => rfl
  | cons f rest inner behind =>
    rw [fragmentsDraft, hydration_append, behind, Server.fragmentsSlots]
    congr 1
    cases f with
    | element name attributes children offset =>
      simp only [Fragment.children] at inner
      rw [fragmentDraft, hydration_append, hydration_append, hydration_attributesDraft, inner]
      simp [nodeDraft, hydratable, Server.fragmentSlots]
    | text value => simp [fragmentDraft, nodeDraft, hydratable, Server.fragmentSlots]
    | expression e =>
      simp [fragmentDraft, nodeDraft, hydratable, Server.fragmentSlots, Draft.empty]

/-! ## Each fragment adopts its own node -/

/-- The expression that makes a fresh node for a fragment. -/
def freshNode : Fragment → Expression
  | .element name _ _ _ => documentCall "createElement" (.text name)
  | .text value => documentCall "createTextNode" (.text value)
  | .expression e => documentCall "createTextNode" (embed (notifyTemplate analysis e))

/-- A fragment adopts its own node first, then those of its children from the binding of its
own. -/
theorem adoptions_fragmentDraft (hydratable : options.hydratable = true) (place : Place)
    (count : Nat) (f : Fragment) :
    ∃ node count', adoptions (fragmentDraft options analysis place count f).1.create =
      ⟨node, place.parent, place.index, freshNode analysis f⟩ ::
        adoptions (fragmentsDraft options analysis ⟨node, 0, place.depth + 1⟩ count'
          f.children).1.create := by
  cases f with
  | element name attributes children offset =>
    refine ⟨bindingName name (count + 1), (attributesDraft options analysis name
      (bindingName name (count + 1)) attributes (count + 1)).2, ?_⟩
    rw [fragmentDraft, create_append, create_append, adoptions_append, adoptions_append,
      adoptions_attributesDraft, adoptions_nodeDraft hydratable]
    rfl
  | text value =>
    refine ⟨bindingName "t" (count + 1), count + 1, ?_⟩
    rw [fragmentDraft, adoptions_nodeDraft hydratable]
    rfl
  | expression e =>
    refine ⟨bindingName "t" (count + 1), count + 1, ?_⟩
    rw [fragmentDraft, create_append, adoptions_append, adoptions_nodeDraft hydratable]
    rfl

/-- The bindings that adopt are among the bindings of a draft, in order. -/
theorem sublist_fragmentsDraft (hydratable : options.hydratable = true) (fs : List Fragment)
    (place : Place) (count : Nat) :
    ((adoptions (fragmentsDraft options analysis place count fs).1.create).map
      Adoption.binding).Sublist (fragmentsDraft options analysis place count fs).1.bindings := by
  induction fs using Fragment.induction generalizing place count with
  | nil => exact List.Sublist.refl []
  | cons f rest inner behind =>
    rw [fragmentsDraft, create_append, adoptions_append, List.map_append, bindings_append]
    refine List.Sublist.append ?_ (behind _ _)
    cases f with
    | element name attributes children offset =>
      rw [fragmentDraft, create_append, create_append, adoptions_append, adoptions_append,
        adoptions_attributesDraft, adoptions_nodeDraft hydratable, List.append_nil]
      refine List.Sublist.cons_cons _ ((inner _ _).trans ?_)
      exact List.sublist_append_right _ _
    | text value =>
      rw [fragmentDraft, adoptions_nodeDraft hydratable]
      exact List.Sublist.refl _
    | expression e =>
      rw [fragmentDraft, create_append, adoptions_append, adoptions_nodeDraft hydratable]
      exact List.Sublist.refl _

end

/-- The positions of fragments, counted from `number` on, with adoptions in source order. -/
def located (number : Nat) (fs : List Fragment) (as : List Adoption) :
    List (List Nat × Adoption) :=
  (Fragment.allPositions number fs).zip as

/-- Whether an adoption suits the fragment at a position of some markup: it takes the node that was
rendered for this fragment, from the binding of the element around it. At the top level, that is the
binding of the parent. -/
def Suits (analysis : Analysis) (parent : String) (html : List Fragment)
    (all : List (List Nat × Adoption)) (position : List Nat) (a : Adoption) : Prop :=
  ∃ outer number level f, position = outer ++ [number] ∧
    Fragment.siblings? html outer = some level ∧ level[number]? = some f ∧
    a.fresh = freshNode analysis f ∧
    (renderedChildren 0 level)[a.index]? = some (renderedNode number f) ∧
    (outer = [] ∧ a.parent = parent ∨ ∃ b, (outer, b) ∈ all ∧ a.parent = b.binding)

theorem Suits.mono {analysis : Analysis} {parent : String} {html : List Fragment}
    {all all' : List (List Nat × Adoption)} {position : List Nat} {a : Adoption}
    (h : Suits analysis parent html all position a) (subset : ∀ x ∈ all, x ∈ all') :
    Suits analysis parent html all' position a := by
  obtain ⟨outer, number, level, f, eq, found, child, fresh, node, around⟩ := h
  refine ⟨outer, number, level, f, eq, found, child, fresh, node, ?_⟩
  rcases around with top | ⟨b, mem, same⟩
  · exact .inl top
  · exact .inr ⟨b, subset _ mem, same⟩

/-- What suits the children of an element suits the markup around it. -/
theorem Suits.within {analysis : Analysis} {parent : String} {html : List Fragment}
    {all all' : List (List Nat × Adoption)} {position : List Nat} {a own : Adoption} {f : Fragment}
    {number : Nat} (h : Suits analysis own.binding f.children all position a)
    (child : html[number]? = some f) (mem_own : ([number], own) ∈ all')
    (subset : ∀ p b, (p, b) ∈ all → (number :: p, b) ∈ all') :
    Suits analysis parent html all' (number :: position) a := by
  obtain ⟨outer, number', level, g, rfl, found, child', fresh, node, around⟩ := h
  refine ⟨number :: outer, number', level, g, rfl, ?_, child', fresh, node, .inr ?_⟩
  · rw [Fragment.siblings?, child]
    exact found
  · rcases around with ⟨rfl, same⟩ | ⟨b, mem, same⟩
    · exact ⟨own, mem_own, same⟩
    · exact ⟨b, subset outer b mem, same⟩

/-- Whether there is one adoption for each of some fragments, which follow others in their parent,
and each suits its fragment. -/
structure SuitAll (analysis : Analysis) (parent : String) (before fs : List Fragment)
    (as : List Adoption) : Prop where
  length : as.length = (Fragment.allPositions before.length fs).length
  suits : ∀ position a, (position, a) ∈ located before.length fs as →
    Suits analysis parent (before ++ fs) (located before.length fs as) position a

theorem located_cons {number : Nat} {f : Fragment} {rest : List Fragment} {own : Adoption}
    {as bs : List Adoption} (length : as.length = (Fragment.allPositions 0 f.children).length) :
    located number (f :: rest) (own :: (as ++ bs)) =
      ([number], own) :: ((located 0 f.children as).map (Prod.map (number :: ·) id) ++
        located (number + 1) rest bs) := by
  unfold located
  rw [Fragment.allPositions_cons, List.zip_cons_cons, List.zip_append (by simp [length]),
    List.zip_map_left]

/-- A fragment's own adoption, those of its children and those of the fragments behind it. -/
theorem SuitAll.cons {analysis : Analysis} {parent : String} {before rest : List Fragment}
    {f : Fragment} {own : Adoption} {as bs : List Adoption} (own_parent : own.parent = parent)
    (own_index : own.index = (renderedChildren 0 before).length)
    (own_fresh : own.fresh = freshNode analysis f)
    (inner : SuitAll analysis own.binding [] f.children as)
    (behind : SuitAll analysis parent (before ++ [f]) rest bs) :
    SuitAll analysis parent before (f :: rest) (own :: (as ++ bs)) := by
  have eq : located before.length (f :: rest) (own :: (as ++ bs)) = _ :=
    located_cons inner.length
  have length := behind.length
  have suits := behind.suits
  rw [List.length_append, List.length_singleton] at length suits
  rw [List.append_assoc, List.singleton_append] at suits
  refine ⟨?_, fun position a mem => ?_⟩
  · have inner_length : as.length = (Fragment.allPositions 0 f.children).length := inner.length
    simp [Fragment.allPositions_cons, inner_length, length]
  rw [eq] at mem ⊢
  rcases List.mem_cons.1 mem with same | mem
  · -- the fragment itself
    obtain ⟨rfl, rfl⟩ := Prod.mk.inj same
    refine ⟨[], before.length, before ++ f :: rest, f, rfl, rfl, by simp, own_fresh, ?_,
      .inl ⟨rfl, own_parent⟩⟩
    rw [own_index]
    exact getElem?_renderedChildren before f rest
  rcases List.mem_append.1 mem with mem | mem
  · -- a fragment inside it
    obtain ⟨⟨p, b⟩, deeper, same⟩ := List.mem_map.1 mem
    obtain ⟨rfl, rfl⟩ := Prod.mk.inj same
    refine (inner.suits p b deeper).within (by simp) List.mem_cons_self fun q c mem => ?_
    exact List.mem_cons_of_mem _ (List.mem_append_left _ (List.mem_map.2 ⟨(q, c), mem, rfl⟩))
  · -- a fragment behind it
    refine (suits position a mem).mono fun x mem => ?_
    exact List.mem_cons_of_mem _ (List.mem_append_right _ mem)

/-- Each fragment of a draft has an adoption that suits it. -/
theorem suitAll_fragmentsDraft {options : Options} (hydratable : options.hydratable = true)
    (analysis : Analysis) (fs before : List Fragment) (place : Place) (count : Nat)
    (index : place.index = (renderedChildren 0 before).length) :
    SuitAll analysis place.parent before fs
      (adoptions (fragmentsDraft options analysis place count fs).1.create) := by
  induction fs using Fragment.induction generalizing before place count with
  | nil => exact ⟨rfl, fun _ _ mem => by cases mem⟩
  | cons f rest inner behind =>
    obtain ⟨node, count', first⟩ := adoptions_fragmentDraft analysis hydratable place count f
    rw [fragmentsDraft, create_append, adoptions_append, first, List.cons_append]
    refine SuitAll.cons rfl index rfl (inner [] ⟨node, 0, place.depth + 1⟩ count' rfl) ?_
    refine behind (before ++ [f]) { place with index := place.index + f.width } _ ?_
    rw [renderedChildren_append, List.length_append, ← index]
    simp [renderedChildren, length_renderedNodes]

/-- What it means that adoptions find the rendered nodes of some markup again. -/
structure Aligned (analysis : Analysis) (html : List Fragment) (as : List Adoption) : Prop where
  /-- Every fragment has an adoption. -/
  adopted : ∀ outer level number f, Fragment.siblings? html outer = some level →
    level[number]? = some f → ∃ a, (outer ++ [number], a) ∈ located 0 html as
  /-- It has no other. -/
  once : ∀ position a b, (position, a) ∈ located 0 html as → (position, b) ∈ located 0 html as →
    a = b
  /-- Nothing else is adopted. -/
  only : ∀ a ∈ as, ∃ position, (position, a) ∈ located 0 html as
  /-- An adoption asks the binding of the element around its fragment for the node that was rendered
  for the fragment. -/
  suits : ∀ position a, (position, a) ∈ located 0 html as →
    Suits analysis Vocabulary.target html (located 0 html as) position a
  /-- No two adoptions have a binding in common. -/
  distinct : (as.map Adoption.binding).Nodup
  /-- No binding is called like the target. -/
  not_target : Vocabulary.target ∉ as.map Adoption.binding

theorem SuitAll.aligned {analysis : Analysis} {html : List Fragment} {as : List Adoption}
    (all : SuitAll analysis Vocabulary.target [] html as)
    (distinct : (as.map Adoption.binding).Nodup)
    (not_target : Vocabulary.target ∉ as.map Adoption.binding) : Aligned analysis html as := by
  -- the list pairs all positions with all adoptions, so that each half can be read off
  have firsts : (located 0 html as).map Prod.fst = Fragment.allPositions 0 html :=
    List.map_fst_zip (Nat.le_of_eq all.length.symm)
  have seconds : (located 0 html as).map Prod.snd = as :=
    List.map_snd_zip (Nat.le_of_eq all.length)
  refine ⟨?_, ?_, ?_, all.suits, distinct, not_target⟩
  · intro outer level number f found child
    have mem := Fragment.mem_allPositions found child
    rw [← firsts] at mem
    obtain ⟨⟨_, a⟩, adopted, rfl⟩ := List.mem_map.1 mem
    exact ⟨a, adopted⟩
  · intro position a b mem mem'
    have nodup := Fragment.nodup_allPositions 0 html
    rw [← firsts] at nodup
    exact (Prod.mk.inj (List.inj_on_of_nodup_map nodup mem mem' rfl)).2
  · intro a mem
    rw [← seconds] at mem
    obtain ⟨⟨position, _⟩, found, rfl⟩ := List.mem_map.1 mem
    exact ⟨position, found⟩

theorem aligned_documentDraft {options : Options} (hydratable : options.hydratable = true)
    (analysis : Analysis) (html : List Fragment) :
    Aligned analysis html (adoptions (documentDraft options analysis html).create) := by
  have sublist : ((adoptions (documentDraft options analysis html).create).map
      Adoption.binding).Sublist (documentDraft options analysis html).bindings :=
    sublist_fragmentsDraft analysis hydratable html ⟨Vocabulary.target, 0, 0⟩ 0
  refine SuitAll.aligned ?_ ?_ ?_
  · exact suitAll_fragmentsDraft hydratable analysis html [] ⟨Vocabulary.target, 0, 0⟩ 0 rfl
  · exact (nodup_bindings options analysis html).sublist sublist
  · intro mem
    exact not_mem_bindings options analysis (by decide) html (sublist.subset mem)

/-! ## Modules -/

theorem adoptions_generate (component : Component) (analysis : Analysis) (options : Options) :
    adoptions (methodBody "create" (generate component analysis options).code) =
      adoptions (documentDraft options analysis component.html).create := by
  rw [methodBody_create, adoptions_append]
  exact List.append_nil _

/-- The client and the server module of a component have the same slots. -/
theorem hydration_generate {options : Options} (hydratable : options.hydratable = true)
    (serverOptions : Options) (component : Component) (analysis : Analysis) :
    (generate component analysis options).hydration =
      (Server.generate component analysis serverOptions).hydration :=
  hydration_fragmentsDraft analysis hydratable component.html ⟨Vocabulary.target, 0, 0⟩ 0

/-- A component that can be read compiles for both targets, with the same analysis and the same
slots; one that cannot is rejected as by the compilation for the client. -/
theorem compileTargets_agree {options : Options} (hydratable : options.hydratable = true)
    (source : String) :
    (∃ d, compile source { options with mode := .client } = .error d ∧
        compileTargets source options = .error d) ∨
      ∃ r, compileTargets source options = .ok r ∧
        compile source { options with mode := .client } = .ok r.client ∧
        compile source { options with mode := .server } = .ok r.server ∧
        r.client.analysis = r.server.analysis ∧ r.client.hydration = r.server.hydration := by
  unfold compileTargets compile
  cases parsed : Component.parse source options.filePath with
  | error d => exact .inl ⟨d, rfl, rfl⟩
  | ok component =>
    refine .inr ⟨_, rfl, rfl, rfl, rfl, ?_⟩
    have hydratable' : { options with mode := Mode.client }.hydratable = true := hydratable
    exact hydration_generate hydratable' { options with mode := .server } component
      (component.analyze options.eventMarker).analysis

/-- **Both targets agree on the rendered nodes**: their slots are equal, they compile together or
not at all, and the client module adopts for each fragment the node that was rendered for it. -/
theorem hydration_aligned {options : Options} (hydratable : options.hydratable = true) :
    (∀ component analysis, (generate component analysis options).hydration =
        (Server.generate component analysis options).hydration) ∧
      (∀ source,
        (∃ d, compile source { options with mode := .client } = .error d ∧
            compileTargets source options = .error d) ∨
          ∃ r, compileTargets source options = .ok r ∧
            compile source { options with mode := .client } = .ok r.client ∧
            compile source { options with mode := .server } = .ok r.server ∧
            r.client.analysis = r.server.analysis ∧ r.client.hydration = r.server.hydration) ∧
      ∀ component analysis, Aligned analysis component.html
        (adoptions (methodBody "create" (generate component analysis options).code)) := by
  refine ⟨fun component analysis => ?_, fun source => ?_, fun component analysis => ?_⟩
  · exact hydration_generate hydratable options component analysis
  · exact compileTargets_agree hydratable source
  · rw [adoptions_generate]
    exact aligned_documentDraft hydratable analysis component.html

/-- A text, an element with an interpolation, and another text. -/
def mixedMarkup : Component where
  html :=
    [.text "a", .element "b" [] [.expression (.identifier "n")] 1, .text "c"]
  script := []

theorem hydration_aligned_mixedMarkup :
    (adoptions (methodBody "create"
        (generate mixedMarkup (mixedMarkup.analyze "on:").analysis {}).code)).map
          (fun a => (a.binding, a.parent, a.index)) =
        [("$$t_1", "$$target", 0), ("$$b_2", "$$target", 2), ("$$t_3", "$$b_2", 0),
          ("$$t_4", "$$target", 3)] ∧
      Aligned (mixedMarkup.analyze "on:").analysis mixedMarkup.html
        (adoptions (methodBody "create"
          (generate mixedMarkup (mixedMarkup.analyze "on:").analysis {}).code)) :=
  ⟨by decide +kernel, (hydration_aligned rfl).2.2 mixedMarkup (mixedMarkup.analyze "on:").analysis⟩

end ReactiveMarkup.Client
