import ReactiveMarkup.Proofs.DocumentModel
import ReactiveMarkup.Proofs.Hydration

/-!
# Where nodes are mounted

Which binding holds the node of a fragment is read off the method `create`: the node at a position
is found by following, number by number, the nodes that are mounted on a parent (`bindingAt?`).
Since bindings are distinct, the code of some fragments mounts nodes on their parent and on their
own nodes only, wherever it stands in `create` (`Embedded`). So each fragment has a node, and each
node a binding of its own (`map_bindingAt?_allPositions`).
-/

namespace ReactiveMarkup.Client

open Emission (Statement Expression)
open Document (Content action? assignment?)

/-- The binding of the node that a statement mounts on a parent. -/
def mountedOn? (parent : String) (s : Statement) : Option String :=
  match action? s with
  | some (.append parent' node) => if parent' = parent then some node else none
  | _ => none

/-- The bindings of the nodes that are mounted on a parent, in order. -/
def mountedOn (create : List Statement) (parent : String) : List String :=
  create.filterMap (mountedOn? parent)

/-- The binding of the node that is mounted at a position under a parent. -/
def bindingAt? (create : List Statement) : String → List Nat → Option String
  | parent, [] => some parent
  | parent, k :: rest => (mountedOn create parent)[k]?.bind fun node => bindingAt? create node rest

/-! ## What drafts mount -/

theorem mountedOn_append (code code' : List Statement) (parent : String) :
    mountedOn (code ++ code') parent = mountedOn code parent ++ mountedOn code' parent :=
  List.filterMap_append

section

variable (options : Options) (analysis : Analysis)

theorem mountedOn_nodeDraft (place : Place) {node : String} {fresh : Expression}
    {content : Content} (makes : assignment? node fresh = some (.make node content))
    (parent : String) :
    mountedOn (nodeDraft options place node fresh).create parent =
      if place.parent = parent then [node] else [] := by
  simp only [mountedOn, nodeDraft, List.filterMap_cons, mountedOn?, Document.action?_assignTo,
    Document.assignment?_adoptOrCreate, makes, Document.action?_mount, List.filterMap_nil]
  split <;> simp_all

theorem mountedOn_valueDraft (node : String) (a : Attribute) (parent : String) :
    mountedOn (valueDraft analysis node a).create parent = [] := by
  simp [mountedOn, valueDraft, mountedOn?, Document.action?_setAttribute]

theorem mountedOn_eventDraft (element node event : String) (a : Attribute) (count : Nat)
    (parent : String) :
    mountedOn (eventDraft analysis element node event a count).1.create parent = [] := by
  unfold eventDraft
  split
  · simp [mountedOn, listenerDraft, mountedOn?, Document.action?_addEventListener]
  · simp [mountedOn, listenerDraft, mountedOn?, Document.action?_addEventListener,
      Document.action?_assignTo, Document.assignment?_embed]

/-- Attributes mount nothing. -/
theorem mountedOn_attributesDraft (element node : String) (attributes : List Attribute)
    (count : Nat) (parent : String) :
    mountedOn (attributesDraft options analysis element node attributes count).1.create parent =
      [] := by
  induction attributes generalizing count with
  | nil => rfl
  | cons a rest ih =>
    rw [attributesDraft, create_append, mountedOn_append, ih, List.append_nil]
    cases a.event? options.eventMarker with
    | none => exact mountedOn_valueDraft analysis node a parent
    | some event => exact mountedOn_eventDraft analysis element node event a count parent

/-- The binding of the node of a fragment, given how many bindings there are before. -/
def nodeBinding (count : Nat) : Fragment → String
  | .element name _ _ _ => bindingName name (count + 1)
  | .text _ => bindingName "t" (count + 1)
  | .expression _ => bindingName "t" (count + 1)

/-- How many bindings there are before those inside a fragment. -/
def innerCount (count : Nat) (f : Fragment) : Nat :=
  match f with
  | .element name attributes _ _ =>
    (attributesDraft options analysis name (nodeBinding count f) attributes (count + 1)).2
  | _ => count + 1

/-- The code for the fragments inside a fragment. -/
def innerDraft (place : Place) (count : Nat) (f : Fragment) : Draft :=
  (fragmentsDraft options analysis ⟨nodeBinding count f, 0, place.depth + 1⟩
    (innerCount options analysis count f) f.children).1

/-- The code for the fragments behind a fragment. -/
def behindDraft (place : Place) (count : Nat) (f : Fragment) (rest : List Fragment) : Draft :=
  (fragmentsDraft options analysis { place with index := place.index + f.width }
    (fragmentDraft options analysis place count f).2 rest).1

/-- A fragment mounts its node on its parent, and then the nodes inside. -/
theorem mountedOn_fragmentDraft (place : Place) (count : Nat) (f : Fragment) (parent : String) :
    mountedOn (fragmentDraft options analysis place count f).1.create parent =
      (if place.parent = parent then [nodeBinding count f] else []) ++
        mountedOn (innerDraft options analysis place count f).create parent := by
  cases f with
  | element name attributes children offset =>
    rw [fragmentDraft, create_append, create_append, mountedOn_append, mountedOn_append,
      mountedOn_attributesDraft, List.append_nil,
      mountedOn_nodeDraft options place (Document.assignment?_createElement _ _)]
    rfl
  | text value =>
    rw [fragmentDraft, mountedOn_nodeDraft options place (Document.assignment?_createTextNode _ _)]
    exact (List.append_nil _).symm
  | expression e =>
    rw [fragmentDraft, create_append, mountedOn_append,
      mountedOn_nodeDraft options place (Document.assignment?_createTextNode _ _)]
    rfl

/-- The bindings of a fragment are that of its node, those of its handlers and those inside. -/
theorem bindings_fragmentDraft (place : Place) (count : Nat) (f : Fragment) :
    ∃ handlers, (fragmentDraft options analysis place count f).1.bindings =
      nodeBinding count f ::
        (handlers ++ (innerDraft options analysis place count f).bindings) := by
  cases f with
  | element name attributes children offset =>
    exact ⟨(attributesDraft options analysis name (bindingName name (count + 1)) attributes
      (count + 1)).1.bindings, rfl⟩
  | text value => exact ⟨[], rfl⟩
  | expression e => exact ⟨[], rfl⟩

theorem create_innerDraft_subset (place : Place) (count : Nat) (f : Fragment) :
    (innerDraft options analysis place count f).create ⊆
      (fragmentDraft options analysis place count f).1.create := by
  cases f with
  | element => exact List.subset_append_right _ _
  | text => exact List.nil_subset _
  | expression => exact List.nil_subset _

/-- Fragments mount nodes on their parent and on their own nodes only. -/
theorem mountedOn_fragmentsDraft_eq_nil (fs : List Fragment) (place : Place) (count : Nat)
    {parent : String} (ne : place.parent ≠ parent)
    (absent : parent ∉ (fragmentsDraft options analysis place count fs).1.bindings) :
    mountedOn (fragmentsDraft options analysis place count fs).1.create parent = [] := by
  induction fs using Fragment.induction generalizing place count with
  | nil => rfl
  | cons f rest inner behind =>
    rw [fragmentsDraft, bindings_append, List.mem_append, not_or] at absent
    have later := behind { place with index := place.index + f.width } _ ne absent.2
    rw [fragmentsDraft, create_append, mountedOn_append, later, List.append_nil,
      mountedOn_fragmentDraft, if_neg ne, List.nil_append]
    obtain ⟨handlers, bindings⟩ := bindings_fragmentDraft options analysis place count f
    rw [bindings, List.mem_cons, List.mem_append, not_or, not_or] at absent
    exact inner _ _ (Ne.symm absent.1.1) absent.1.2.2

/-- What fragments mount is the node of the first one, what is inside and what comes behind. -/
theorem mountedOn_fragmentsDraft_cons (place : Place) (count : Nat) (f : Fragment)
    (rest : List Fragment) (parent : String) :
    mountedOn (fragmentsDraft options analysis place count (f :: rest)).1.create parent =
      (if place.parent = parent then [nodeBinding count f] else []) ++
        (mountedOn (innerDraft options analysis place count f).create parent ++
          mountedOn (behindDraft options analysis place count f rest).create parent) := by
  rw [fragmentsDraft, create_append, mountedOn_append, mountedOn_fragmentDraft, List.append_assoc]
  rfl

end

/-! ## Drafts inside `create` -/

/-- Whether a draft stands in the code of `create`, behind that of some fragments with the same
parent: nothing else mounts nodes on its nodes. -/
structure Embedded (create : List Statement) (parent : String) (k : Nat) (x : Draft) : Prop where
  subset : x.create ⊆ create
  own : ∃ before after, before.length = k ∧
    mountedOn create parent = before ++ (mountedOn x.create parent ++ after)
  inner : ∀ node ∈ x.bindings, mountedOn create node = mountedOn x.create node
  fresh : parent ∉ x.bindings
  nodup : x.bindings.Nodup

section

variable {options : Options} {analysis : Analysis} {create : List Statement} {place : Place}
  {count k : Nat} {f : Fragment} {rest : List Fragment}

/-- The node of the first of some fragments. -/
theorem Embedded.node
    (h : Embedded create place.parent k
      (fragmentsDraft options analysis place count (f :: rest)).1) :
    (mountedOn create place.parent)[k]? = some (nodeBinding count f) := by
  obtain ⟨before, after, rfl, mounted⟩ := h.own
  rw [mounted, mountedOn_fragmentsDraft_cons, if_pos rfl]
  simp

/-- The bindings of the nodes of some fragments are distinct, and none is that of the parent. -/
theorem Embedded.distinct
    (h : Embedded create place.parent k
      (fragmentsDraft options analysis place count (f :: rest)).1) :
    (place.parent :: nodeBinding count f :: ((innerDraft options analysis place count f).bindings ++
      (behindDraft options analysis place count f rest).bindings)).Nodup := by
  obtain ⟨handlers, bindings⟩ := bindings_fragmentDraft options analysis place count f
  have nodup := List.nodup_cons.2 ⟨h.fresh, h.nodup⟩
  rw [fragmentsDraft, bindings_append, bindings] at nodup
  refine nodup.sublist (List.Sublist.cons_cons _ (List.Sublist.cons_cons _ ?_))
  exact (List.sublist_append_right _ _).append (List.Sublist.refl _)

theorem Embedded.mountedOn_eq
    (h : Embedded create place.parent k
      (fragmentsDraft options analysis place count (f :: rest)).1)
    {node : String} (mem : node ∈ nodeBinding count f ::
      ((innerDraft options analysis place count f).bindings ++
        (behindDraft options analysis place count f rest).bindings)) :
    mountedOn create node = mountedOn (innerDraft options analysis place count f).create node ++
      mountedOn (behindDraft options analysis place count f rest).create node := by
  have ne : place.parent ≠ node := fun same => (List.nodup_cons.1 h.distinct).1 (same ▸ mem)
  have listed : node ∈ (fragmentsDraft options analysis place count (f :: rest)).1.bindings := by
    obtain ⟨handlers, bindings⟩ := bindings_fragmentDraft options analysis place count f
    rw [fragmentsDraft, bindings_append, bindings]
    simp only [List.mem_cons, List.mem_append] at mem ⊢
    tauto
  rw [h.inner node listed, mountedOn_fragmentsDraft_cons, if_neg ne, List.nil_append]

/-- The fragments inside the first one. -/
theorem Embedded.inside
    (h : Embedded create place.parent k
      (fragmentsDraft options analysis place count (f :: rest)).1) :
    Embedded create (nodeBinding count f) 0 (innerDraft options analysis place count f) := by
  have distinct := h.distinct
  simp only [List.nodup_cons, List.mem_cons, List.mem_append, not_or, List.nodup_append] at distinct
  obtain ⟨⟨ne, parentInside, -⟩, ⟨freshInside, nodeBehind⟩, nodup, -, apart⟩ := distinct
  -- what comes behind mounts nothing on a node of the first fragment
  have nothing : ∀ node, node ∈ nodeBinding count f ::
      (innerDraft options analysis place count f).bindings →
      mountedOn (behindDraft options analysis place count f rest).create node = [] := by
    intro node mem
    rcases List.mem_cons.1 mem with rfl | mem
    · exact mountedOn_fragmentsDraft_eq_nil _ _ _ _ _ ne nodeBehind
    · have other : place.parent ≠ node := fun same => parentInside (same ▸ mem)
      exact mountedOn_fragmentsDraft_eq_nil _ _ _ _ _ other fun mem' => apart node mem node mem' rfl
  refine ⟨?_, ⟨[], [], rfl, ?_⟩, fun node mem => ?_, freshInside, nodup⟩
  · exact fun s mem => h.subset (List.mem_append_left _ (create_innerDraft_subset _ _ _ _ _ mem))
  · rw [h.mountedOn_eq List.mem_cons_self, nothing _ List.mem_cons_self]
    simp
  · have mem' := List.mem_cons_of_mem (nodeBinding count f) mem
    rw [h.mountedOn_eq (by simp [mem]), nothing node mem', List.append_nil]

/-- The fragments behind the first one. -/
theorem Embedded.behind
    (h : Embedded create place.parent k
      (fragmentsDraft options analysis place count (f :: rest)).1) :
    Embedded create place.parent (k + 1) (behindDraft options analysis place count f rest) := by
  have distinct := h.distinct
  simp only [List.nodup_cons, List.mem_cons, List.mem_append, not_or, List.nodup_append] at distinct
  obtain ⟨⟨ne, parentInside, freshBehind⟩, ⟨-, nodeBehind⟩, -, nodup, apart⟩ := distinct
  -- the first fragment mounts nothing on a node behind it, and only its own node on the parent
  have nothing : ∀ node, node ∈ place.parent ::
      (behindDraft options analysis place count f rest).bindings →
      mountedOn (innerDraft options analysis place count f).create node = [] := by
    intro node mem
    rcases List.mem_cons.1 mem with rfl | mem
    · exact mountedOn_fragmentsDraft_eq_nil _ _ _ _ _ (Ne.symm ne) parentInside
    · have other : nodeBinding count f ≠ node := fun same => nodeBehind (same ▸ mem)
      exact mountedOn_fragmentsDraft_eq_nil _ _ _ _ _ other fun mem' => apart node mem' node mem rfl
  refine ⟨?_, ?_, fun node mem => ?_, freshBehind, nodup⟩
  · exact fun s mem => h.subset (List.mem_append_right _ mem)
  · obtain ⟨before, after, rfl, mounted⟩ := h.own
    refine ⟨before ++ [nodeBinding count f], after, by simp, ?_⟩
    rw [mounted, mountedOn_fragmentsDraft_cons, if_pos rfl, nothing _ List.mem_cons_self]
    simp
  · rw [h.mountedOn_eq (by simp [mem]), nothing node (List.mem_cons_of_mem _ mem), List.nil_append]

theorem bindingAt?_cons {node : String} (found : (mountedOn create place.parent)[k]? = some node)
    (position : List Nat) :
    bindingAt? create place.parent (k :: position) = bindingAt? create node position := by
  rw [bindingAt?, found, Option.bind_some]

/-- Each fragment has a node, and each node a binding of its own. -/
theorem map_bindingAt?_allPositions (fs : List Fragment) (place : Place) {count k : Nat}
    (h : Embedded create place.parent k (fragmentsDraft options analysis place count fs).1) :
    ∃ nodes : List String,
      nodes.Sublist (fragmentsDraft options analysis place count fs).1.bindings ∧
      (Fragment.allPositions k fs).map (bindingAt? create place.parent) = nodes.map some := by
  induction fs using Fragment.induction generalizing place count k with
  | nil => exact ⟨[], List.Sublist.refl _, rfl⟩
  | cons f rest inner behind =>
    obtain ⟨inside, among, found⟩ := inner ⟨nodeBinding count f, 0, place.depth + 1⟩ h.inside
    obtain ⟨others, among', found'⟩ := behind { place with index := place.index + f.width } h.behind
    have own : bindingAt? create place.parent [k] = some (nodeBinding count f) :=
      bindingAt?_cons h.node []
    have below : (bindingAt? create place.parent) ∘ (k :: ·) =
        bindingAt? create (nodeBinding count f) := funext (bindingAt?_cons h.node)
    refine ⟨nodeBinding count f :: (inside ++ others), ?_, ?_⟩
    · obtain ⟨handlers, bindings⟩ := bindings_fragmentDraft options analysis place count f
      rw [fragmentsDraft, bindings_append, bindings]
      exact ((among.trans (List.sublist_append_right _ _)).append among').cons_cons _
    · rw [Fragment.allPositions_cons, List.map_cons, List.map_append, List.map_map, own, below,
        found, found', List.map_cons, List.map_append]

end

/-- The code for a document stands in the method `create`. -/
theorem embedded_documentDraft (component : Component) (analysis : Analysis) (options : Options) :
    Embedded (methodBody "create" (generate component analysis options).code) Vocabulary.target 0
      (documentDraft options analysis component.html) := by
  have mounted (parent : String) :
      mountedOn (methodBody "create" (generate component analysis options).code) parent =
        mountedOn (documentDraft options analysis component.html).create parent := by
    rw [methodBody_create, mountedOn_append]
    exact List.append_nil _
  refine ⟨?_, ⟨[], [], rfl, ?_⟩, fun node _ => mounted node, ?_, ?_⟩
  · rw [methodBody_create]
    exact List.subset_append_left _ _
  · rw [mounted, List.nil_append, List.append_nil]
  · exact not_mem_bindings options analysis (by decide) component.html
  · exact nodup_bindings options analysis component.html

end ReactiveMarkup.Client
