import Mathlib.Data.List.Chain
import ReactiveMarkup.Emission.Printer
import ReactiveMarkup.Proofs.DocumentModel
import ReactiveMarkup.Proofs.Lifecycle
import ReactiveMarkup.Proofs.NotifiedTree
import ReactiveMarkup.Server.Module

/-!
# Client and server render the same markup

Running `create` on an empty target leaves a tree of nodes under it. Written as markup, with the
expressions in it escaped, this tree is the template that the server module returns. The proof
follows the document while fragments are mounted: a fragment changes nothing but the child list of
its parent (`Grown`), and the nodes that it makes, which are numbered one after the other, hold the
tree of the fragment (`Holds`).
-/

namespace ReactiveMarkup.Document

open Emission (Statement Expression Module TemplatePart)
open Client

/-! ## Trees and their markup -/

/-- A node with all that is below it. -/
inductive Tree
  | node (content : Content) (attributes : List (String × Expression)) (children : List Tree)

/-- An expression escaped for markup. -/
def escapedSlot (e : Expression) : Expression := .call (.identifier Vocabulary.escape) [e]

/-- The markup of an attribute. -/
def attributeMarkup : String × Expression → List TemplatePart
  | (name, value) => [.literal (" " ++ name ++ "=\""), .slot (escapedSlot value), .literal "\""]

/-- The markup of a text: itself if it is known, otherwise its escaped value or, for an empty one,
a character without width. -/
def textMarkup : Expression → List TemplatePart
  | .text value => [.literal value, .literal "<!---->"]
  | data => [.slot (.binary (escapedSlot data) "||" (.text "\u200b")), .literal "<!---->"]

mutual

/-- A tree written as markup. -/
def Tree.markup : Tree → List TemplatePart
  | .node (.element name) attributes children =>
    .literal ("<" ++ name) :: attributes.flatMap attributeMarkup ++ [.literal ">"] ++
      Tree.allMarkup children ++ [.literal ("</" ++ name ++ ">")]
  | .node (.text data) _ _ => textMarkup data
termination_by structural t => t

/-- Trees written as markup, one after the other. -/
def Tree.allMarkup : List Tree → List TemplatePart
  | [] => []
  | t :: rest => t.markup ++ Tree.allMarkup rest
termination_by structural ts => ts

end

/-! ## Joined literals -/

/-- The characters and slots of a template, one by one. -/
def unpacked (parts : List TemplatePart) : List (Char ⊕ Expression) :=
  parts.flatMap fun
    | .literal text => text.toList.map .inl
    | .slot e => [.inr e]

/-- Whether a template has the same characters and slots as some pieces, and no two literals next
to each other. -/
structure Joins (pieces parts : List TemplatePart) : Prop where
  same : unpacked parts = unpacked pieces
  apart : parts.IsChain fun x y => x.isSlot = true ∨ y.isSlot = true

theorem unpacked_cons (part : TemplatePart) (parts : List TemplatePart) :
    unpacked (part :: parts) = unpacked [part] ++ unpacked parts := by
  simp [unpacked]

theorem unpacked_literal_append (text text' : String) :
    unpacked [.literal (text ++ text')] =
      unpacked [.literal text] ++ unpacked [.literal text'] := by
  simp [unpacked]

/-- Joining the literals of some pieces joins all that are next to each other, and nothing else. -/
theorem joins_mergeLiterals (pieces : List TemplatePart) :
    Joins pieces (Server.mergeLiterals pieces) := by
  induction pieces with
  | nil => exact ⟨rfl, .nil⟩
  | cons piece rest ih =>
    obtain ⟨same, apart⟩ := ih
    cases piece with
    | slot e =>
      rw [Server.mergeLiterals]
      refine ⟨?_, apart.cons fun _ _ => .inl rfl⟩
      rw [unpacked_cons, same, ← unpacked_cons]
    | literal text =>
      rw [Server.mergeLiterals]
      split
      -- the literal is put before the first one of the rest, which had no literal next to it
      · rename_i more others merged
        rw [merged] at same apart
        refine ⟨?_, (List.isChain_cons.1 apart).2.cons (List.isChain_cons.1 apart).1⟩
        rw [unpacked_cons, unpacked_literal_append, List.append_assoc, ← unpacked_cons, same,
          ← unpacked_cons]
      · rename_i no_literal
        refine ⟨?_, apart.cons fun y first => ?_⟩
        · rw [unpacked_cons, same, ← unpacked_cons]
        · cases y with
          | slot e => exact .inr rfl
          | literal more =>
            obtain ⟨others, merged⟩ := List.head?_eq_some_iff.1 first
            exact absurd merged (no_literal more others)

/-! ## Trees in a document -/

variable {V : Type}

/-- The tree at a node, if it is at most this deep. -/
def World.tree? (w : World V) : Nat → Nat → Option Tree
  | 0, _ => none
  | depth + 1, n =>
    ((w.node n).children.mapM (w.tree? depth)).map
      (.node (w.node n).content (w.node n).attributes)

/-- The trees at some nodes. -/
def World.trees? (w : World V) (ns : List Nat) : Option (List Tree) := ns.mapM (w.tree? w.size)

/-- Whether nodes hold trees that lie in the numbers from `low` to `high`, where children have
larger numbers than their parents. -/
inductive Holds (node : Nat → Node V) (high : Nat) : Nat → List Nat → List Tree → Prop
  | nil {low : Nat} : Holds node high low [] []
  | cons {low n : Nat} {rest : List Nat} {children others : List Tree} (from_low : low ≤ n)
    (below_high : n < high) (inner : Holds node high (n + 1) (node n).children children)
    (behind : Holds node high low rest others) :
    Holds node high low (n :: rest)
      (.node (node n).content (node n).attributes children :: others)

namespace Holds

variable {node node' : Nat → Node V} {high high' low low' : Nat} {ns ns' : List Nat}
  {trees trees' : List Tree}

theorem append (h : Holds node high low ns trees) (h' : Holds node high low ns' trees') :
    Holds node high low (ns ++ ns') (trees ++ trees') := by
  induction h with
  | nil => exact h'
  | cons from_low below_high inner _ _ ih => exact .cons from_low below_high inner (ih h')

/-- Only the nodes in between matter. -/
theorem congr (h : Holds node high low ns trees) (bound : high ≤ high') (start : low' ≤ low)
    (agree : ∀ n, low ≤ n → n < high → node' n = node n) : Holds node' high' low' ns trees := by
  induction h generalizing low' with
  | nil => exact .nil
  | @cons low n rest children others from_low below_high inner behind ih_inner ih_behind =>
    rw [← agree n from_low below_high]
    refine .cons (Nat.le_trans start from_low) (Nat.lt_of_lt_of_le below_high bound) ?_
      (ih_behind start agree)
    rw [agree n from_low below_high]
    exact ih_inner (Nat.le_refl _) fun m le lt => agree m (by omega) lt

theorem mapM_tree? {w : World V} (h : Holds w.node high low ns trees) {depth : Nat}
    (deep : high ≤ low + depth) : ns.mapM (w.tree? depth) = some trees := by
  induction h generalizing depth with
  | nil => rfl
  | @cons low n rest children others from_low below_high inner behind ih_inner ih_behind =>
    -- a child has a larger number, so it needs less depth
    obtain ⟨d, rfl⟩ : ∃ d, depth = d + 1 := ⟨depth - 1, by omega⟩
    have this : w.tree? (d + 1) n =
        some (.node (w.node n).content (w.node n).attributes children) := by
      rw [World.tree?, ih_inner (by omega), Option.map_some]
    simp [List.mapM_cons, this, ih_behind deep]

end Holds

/-! ## What fragments make of a document -/

section

variable (marker : String) (analysis : Analysis)

/-- The attributes that are set for some attributes of the markup. -/
def setAttributes (attributes : List Attribute) : List (String × Expression) :=
  (attributes.filter fun a => (a.event? marker).isNone).map fun a =>
    (a.name, embed (notifyTemplate analysis a.value))

theorem setAttributes_cons_of_none {a : Attribute} (rest : List Attribute)
    (plain : a.event? marker = none) :
    setAttributes marker analysis (a :: rest) =
      (a.name, embed (notifyTemplate analysis a.value)) :: setAttributes marker analysis rest := by
  simp [setAttributes, plain]

theorem setAttributes_cons_of_some {a : Attribute} {event : String} (rest : List Attribute)
    (listens : a.event? marker = some event) :
    setAttributes marker analysis (a :: rest) = setAttributes marker analysis rest := by
  simp [setAttributes, listens]

mutual

/-- The tree of a fragment. -/
def fragmentTree : Fragment → Tree
  | .element name attributes children _ =>
    .node (.element name) (setAttributes marker analysis attributes) (fragmentTrees children)
  | .text value => .node (.text (.text value)) [] []
  | .expression e => .node (.text (embed (notifyTemplate analysis e))) [] []
termination_by structural f => f

/-- The trees of some fragments. -/
def fragmentTrees : List Fragment → List Tree
  | [] => []
  | f :: rest => fragmentTree f :: fragmentTrees rest
termination_by structural fs => fs

end

end

/-- What fragments do to a document: they make nodes that hold some trees, and put them behind the
children of a parent. -/
structure Grown (count p : Nat) (trees : List Tree) (w w' : World V) : Prop where
  sound : w'.Sound
  size_le : w.size ≤ w'.size
  kept : ∀ name, Older count name → w'.names name = w.names name
  others : ∀ n < w.size, n ≠ p → w'.node n = w.node n
  parent : ∃ new, w'.node p = { w.node p with children := (w.node p).children ++ new } ∧
    Holds w'.node w'.size w.size new trees

theorem Grown.refl {count p : Nat} {w : World V} (sound : w.Sound) : Grown count p [] w w :=
  ⟨sound, Nat.le_refl _, fun _ _ => rfl, fun _ _ _ => rfl, [], by simp, .nil⟩

theorem Grown.append {count count' p : Nat} {trees trees' : List Tree} {w w₁ w' : World V}
    (made : p < w.size) (numbered : count ≤ count') (first : Grown count p trees w w₁)
    (second : Grown count' p trees' w₁ w') : Grown count p (trees ++ trees') w w' := by
  have made₁ : p < w₁.size := Nat.lt_of_lt_of_le made first.size_le
  obtain ⟨new, parent, holds⟩ := first.parent
  obtain ⟨new', parent', holds'⟩ := second.parent
  refine ⟨second.sound, Nat.le_trans first.size_le second.size_le, fun name older => ?_,
    fun n lt ne => ?_, new ++ new', ?_, ?_⟩
  · rw [second.kept name (older.mono numbered), first.kept name older]
  · rw [second.others n (Nat.lt_of_lt_of_le lt first.size_le) ne, first.others n lt ne]
  · rw [parent', parent]
    simp
  · -- what is mounted second leaves the nodes of the first alone: their parent is older
    refine (holds.congr second.size_le (Nat.le_refl _) fun n le lt => ?_).append
      (holds'.congr (Nat.le_refl _) first.size_le fun _ _ _ => rfl)
    exact second.others n lt (by omega)

/-- A node without children is mounted. -/
theorem grown_mount {count p : Nat} {w : World V} (sound : w.Sound) (made : p < w.size)
    (stem : String) (content : Content) :
    Grown count p [.node content [] []] w (w.mount p (bindingName stem (count + 1)) content) where
  sound := sound.mount made _ _
  size_le := Nat.le_succ _
  kept name older := World.names_mount_of_ne _ _ (older.ne_next stem)
  others n lt ne := World.node_mount_of_ne _ _ ne (Nat.ne_of_lt lt)
  parent := by
    refine ⟨[w.size], World.node_mount_parent _ _ made, ?_⟩
    have self := World.node_mount_self (bindingName stem (count + 1)) content made
    have holds : Holds (w.mount p (bindingName stem (count + 1)) content).node (w.size + 1) w.size
        [w.size] _ :=
      .cons (Nat.le_refl _) (Nat.lt_succ_self _) (by rw [self]; exact .nil) .nil
    rwa [self] at holds

/-- What attributes do to a document: their element is changed, but for its content and its
children. -/
structure Dressed (count n : Nat) (attributes : List (String × Expression)) (w w' : World V) :
    Prop where
  sound : w'.Sound
  size : w'.size = w.size
  kept : ∀ name, Older count name → w'.names name = w.names name
  others : ∀ m, m ≠ n → w'.node m = w.node m
  content : (w'.node n).content = (w.node n).content
  children : (w'.node n).children = (w.node n).children
  attributes : (w'.node n).attributes = (w.node n).attributes ++ attributes

theorem Dressed.append {count count' n : Nat} {attributes attributes' : List (String × Expression)}
    {w w₁ w' : World V} (numbered : count ≤ count') (first : Dressed count n attributes w w₁)
    (second : Dressed count' n attributes' w₁ w') :
    Dressed count n (attributes ++ attributes') w w' where
  sound := second.sound
  size := second.size.trans first.size
  kept name older := (second.kept name (older.mono numbered)).trans (first.kept name older)
  others m ne := (second.others m ne).trans (first.others m ne)
  content := second.content.trans first.content
  children := second.children.trans first.children
  attributes := by rw [second.attributes, first.attributes, List.append_assoc]

/-- One change of an element that keeps its content and its children. -/
theorem dressed_modify {count n : Nat} {attributes : List (String × Expression)} {w w₁ : World V}
    (sound : w.Sound) (made : n < w.size) (rebound : Rebound count w w₁)
    {change : Node V → Node V} (content : (change (w.node n)).content = (w.node n).content)
    (children : (change (w.node n)).children = (w.node n).children)
    (set : (change (w.node n)).attributes = (w.node n).attributes ++ attributes) :
    Dressed count n attributes w (w₁.modify n change) := by
  have self : (w₁.modify n change).node n = change (w.node n) := by
    rw [World.node_modify, rebound.node]
  refine ⟨?_, rebound.size, rebound.kept, fun m ne => ?_, ?_, ?_, ?_⟩
  · refine (rebound.sound sound).modify (rebound.size ▸ made) ?_
    rw [rebound.node, children]
  · rw [World.node_modify_of_ne _ _ ne, rebound.node]
  · rw [self, content]
  · rw [self, children]
  · rw [self, set]

/-- An element is mounted, gets its attributes and then its children. -/
theorem grown_element {count count' p : Nat} {w w₁ w' : World V} {trees : List Tree}
    {attributes : List (String × Expression)} (made : p < w.size) (name : String)
    (numbered : count + 1 ≤ count')
    (own : Dressed (count + 1) w.size attributes
      (w.mount p (bindingName name (count + 1)) (.element name)) w₁)
    (inner : Grown count' w.size trees w₁ w') :
    Grown count p [.node (.element name) attributes trees] w w' := by
  have size : w₁.size = w.size + 1 := own.size
  have mounted := World.node_mount_self (bindingName name (count + 1)) (.element name) made
  obtain ⟨new, self, holds⟩ := inner.parent
  have ne : p ≠ w.size := Nat.ne_of_lt made
  refine ⟨inner.sound, ?_, fun other older => ?_, fun n lt ne_p => ?_, [w.size], ?_, ?_⟩
  · have := inner.size_le
    omega
  · rw [inner.kept other (older.mono (by omega)), own.kept other (older.mono (by omega))]
    exact World.names_mount_of_ne _ _ (older.ne_next name)
  · rw [inner.others n (by omega) (by omega), own.others n (by omega)]
    exact World.node_mount_of_ne _ _ ne_p (by omega)
  · rw [inner.others p (by omega) ne, own.others p ne]
    exact World.node_mount_parent _ _ made
  · have content : (w'.node w.size).content = .element name := by
      rw [self, own.content, mounted]
      rfl
    have set : (w'.node w.size).attributes = attributes := by
      rw [self, own.attributes, mounted]
      rfl
    -- what is set on the new node stays when its children are mounted below it
    have children : (w'.node w.size).children = new := by
      rw [self, own.children, mounted]
      rfl
    rw [← content, ← set]
    refine .cons (Nat.le_refl _) ?_ ?_ .nil
    · have := inner.size_le
      omega
    · rwa [children, ← size]

section

variable (options : Options) (analysis : Analysis) [DecidableEq V] (value : Expression → V)
  {count : Nat} {w : World V}

/-- Of the attributes of an element the rendered ones are set. -/
theorem dressed_attributesDraft (element : String) {node : String} {n : Nat}
    (attributes : List Attribute) (sound : w.Sound) (held : w.names node = some n)
    (older : Older count node) :
    ∃ w',
      replay value (attributesDraft options analysis element node attributes count).1.create w =
        some w' ∧
      Dressed count n (setAttributes options.eventMarker analysis attributes) w w' := by
  induction attributes generalizing count w with
  | nil =>
    exact ⟨w, rfl, sound, rfl, fun _ _ => rfl, fun _ _ => rfl, rfl, rfl, by simp [setAttributes]⟩
  | cons a rest ih =>
    have made : n < w.size := sound.name_lt _ _ held
    rw [attributesDraft]
    cases event : a.event? options.eventMarker with
    | none =>
      have first : Dressed count n [(a.name, embed (notifyTemplate analysis a.value))] w
          (w.modify n (Node.set a.name (embed (notifyTemplate analysis a.value)))) :=
        dressed_modify sound made .refl rfl rfl rfl
      obtain ⟨w', created, others⟩ := ih first.sound held older
      refine ⟨w', replay_of_append value (replay_valueDraft analysis value a held) created, ?_⟩
      rw [setAttributes_cons_of_none _ _ rest event]
      exact first.append (Nat.le_refl _) others
    | some name =>
      -- a listener sets no attribute of the element
      obtain ⟨w₁, handler, rebound, listens, -⟩ :=
        replay_eventDraft analysis value element name a held older
      have numbered := (numbered_eventDraft analysis element node name a count).le
      have first : Dressed count n [] w (w₁.modify n (Node.listen (name, value handler))) :=
        dressed_modify sound made rebound rfl rfl (List.append_nil _).symm
      obtain ⟨w', created, others⟩ := ih first.sound ((first.kept node older).trans held)
        (older.mono numbered)
      refine ⟨w', replay_of_append value listens created, ?_⟩
      rw [setAttributes_cons_of_some _ _ rest event]
      exact first.append numbered others

/-- Fragments make the nodes of their trees. -/
theorem grown_fragmentsDraft (fs : List Fragment) (place : Place) {p : Nat} (sound : w.Sound)
    (held : w.names place.parent = some p) (older : Older count place.parent) :
    ∃ w', replay value (fragmentsDraft options analysis place count fs).1.create w = some w' ∧
      Grown count p (fragmentTrees options.eventMarker analysis fs) w w' := by
  induction fs using Fragment.induction generalizing place count w p with
  | nil => exact ⟨w, rfl, .refl sound⟩
  | cons f rest inner behind =>
    have made : p < w.size := sound.name_lt _ _ held
    -- the first fragment by itself; those behind it see the same parent
    have first : count ≤ (fragmentDraft options analysis place count f).2 ∧ ∃ w₁,
        replay value (fragmentDraft options analysis place count f).1.create w = some w₁ ∧
        Grown count p [fragmentTree options.eventMarker analysis f] w w₁ := by
      cases f with
      | element name attributes children offset =>
        have node := replay_nodeDraft options value place sound held (older.ne_next name)
          (assignment?_createElement _ name)
        have self := w.names_mount_self (p := p) (bindingName name (count + 1)) (.element name)
        have numbered := (numbered_attributesDraft options analysis name
          (bindingName name (count + 1)) attributes (count + 1)).le
        obtain ⟨w₁, dresses, own⟩ := dressed_attributesDraft options analysis value name attributes
          (sound.mount made _ _) self (.bindingName name (count + 1))
        obtain ⟨w₂, grows, below⟩ := inner ⟨bindingName name (count + 1), 0, place.depth + 1⟩
          own.sound ((own.kept _ (.bindingName name (count + 1))).trans self)
          (.mono (.bindingName name (count + 1)) numbered)
        refine ⟨?_, w₂, ?_, grown_element made name numbered own below⟩
        · have := (numbered_fragmentsDraft options analysis children
            ⟨bindingName name (count + 1), 0, place.depth + 1⟩ (attributesDraft options analysis
              name (bindingName name (count + 1)) attributes (count + 1)).2).le
          exact Nat.le_trans (Nat.le_of_succ_le numbered) this
        · exact replay_of_append value (replay_of_append value node dresses) grows
      | text text =>
        exact ⟨Nat.le_succ _, _, replay_nodeDraft options value place sound held
          (older.ne_next "t") (assignment?_createTextNode _ _), grown_mount sound made "t" _⟩
      | expression e =>
        have node := replay_nodeDraft options value place sound held (older.ne_next "t")
          (assignment?_createTextNode _ (embed (notifyTemplate analysis e)))
        exact ⟨Nat.le_succ _, _, replay_of_append value node rfl, grown_mount sound made "t" _⟩
    obtain ⟨numbered, w₁, creates, grown⟩ := first
    obtain ⟨w', created, others⟩ := behind { place with index := place.index + f.width } grown.sound
      ((grown.kept _ older).trans held) (older.mono numbered)
    exact ⟨w', replay_of_append value creates created, grown.append made numbered others⟩

end

/-! ## The markup of the trees -/

section

variable (marker : String) (analysis : Analysis)

theorem textMarkup_embed (e : Script.Expression) :
    textMarkup (embed e) =
      [.slot (.binary (Server.escaped e) "||" (.text Server.emptyText)),
        .literal Server.hydrationMarker] := by
  cases e <;> rfl

theorem attributeMarkup_setAttributes (attributes : List Attribute)
    (unchanged : ∀ a ∈ attributes, a.event? marker = none →
      notifyTemplate analysis a.value = a.value) :
    (setAttributes marker analysis attributes).flatMap attributeMarkup =
      attributes.flatMap (Server.attributeParts marker) := by
  induction attributes with
  | nil => rfl
  | cons a rest ih =>
    rw [List.flatMap_cons, ← ih fun b mem => unchanged b (List.mem_cons_of_mem _ mem)]
    cases event : a.event? marker with
    | none =>
      rw [setAttributes_cons_of_none _ _ rest event, unchanged a List.mem_cons_self event]
      simp [event, attributeMarkup, Server.attributeParts, escapedSlot, Server.escaped]
    | some name =>
      rw [setAttributes_cons_of_some _ _ rest event]
      simp [event, Server.attributeParts]

/-- If notifications change nothing that is rendered, then the trees of some fragments are written
as the server writes them. -/
theorem allMarkup_fragmentTrees (fs : List Fragment)
    (unchanged : ∀ e ∈ Fragment.allRendered marker fs, notifyTemplate analysis e = e) :
    Tree.allMarkup (fragmentTrees marker analysis fs) = Server.fragmentsParts marker fs := by
  induction fs using Fragment.induction with
  | nil => rfl
  | cons f rest inner behind =>
    have later := behind fun e mem => unchanged e (List.mem_append_right _ mem)
    have here : ∀ e ∈ f.rendered marker, notifyTemplate analysis e = e :=
      fun e mem => unchanged e (List.mem_append_left _ mem)
    rw [fragmentTrees, Tree.allMarkup, Server.fragmentsParts, later]
    congr 1
    cases f with
    | element name attributes children offset =>
      have below := inner fun e mem => here e (List.mem_append_right _ mem)
      have own := attributeMarkup_setAttributes marker analysis attributes fun a mem plain =>
        here _ (List.mem_append_left _ (List.mem_map_of_mem
          (List.mem_filter.2 ⟨mem, by rw [plain]; rfl⟩)))
      rw [fragmentTree, Tree.markup, Server.fragmentParts, own]
      rw [Fragment.children] at below
      rw [below]
    | text value => rfl
    | expression e =>
      rw [fragmentTree, Tree.markup, here e List.mem_cons_self, textMarkup_embed]
      rfl

end

/-! ## Modules -/

/-- The template that a statement returns. -/
def template? : Statement → Option (List TemplatePart)
  | .result (.template parts) => some parts
  | _ => none

/-- The template that a module returns first. -/
def returned? (m : Module) : Option (List TemplatePart) := m.body.findSome? template?

/-- Nothing in a server module returns before the rendered markup. -/
theorem returned?_generate (component : Component) (analysis : Analysis) (options : Options) :
    returned? (Server.generate component analysis options).code =
      some (Server.templateParts options.eventMarker component.html) := by
  have bindings : (undeclaredBindings analysis).findSome? template? = none := by
    simp [undeclaredBindings, template?]
  have script (code) : (embedScript code).findSome? template? = none := by
    unfold embedScript
    dsimp only
    split <;> rfl
  have declarations : (plainRecomputation analysis).findSome? template? = none := by
    simp [plainRecomputation, ReactiveDeclaration.code, template?]
  have helper (slots : Bool) :
      (if slots then [Server.escapeHelper] else []).findSome? template? = none := by
    cases slots <;> rfl
  simp only [returned?, Server.generate, List.findSome?_append, bindings, script, declarations,
    helper]
  rfl

/-- **The server renders the tree that the client creates.** Suppose that notifications change no
expression that is rendered. Then in every document and for all values that handlers may have,
`create` without adoption does not fail and puts some nodes behind the children of the target. The
trees of these nodes, written as markup, are what the server module returns, up to literals next to
each other, which are joined. -/
theorem server_renders_created_tree (component : Component) (analysis : Analysis)
    (options : Options)
    (unchanged : ∀ e ∈ Fragment.allRendered options.eventMarker component.html,
      notifyTemplate analysis e = e)
    {V : Type} [DecidableEq V] (value : Expression → V) (w : World V) (target : Nat)
    (sound : w.Sound) (held : w.names Vocabulary.target = some target) :
    ∃ w' new trees,
      replay value (methodBody "create" (generate component analysis options).code) w = some w' ∧
      (w'.node target).children = (w.node target).children ++ new ∧
      w'.trees? new = some trees ∧
      returned? (Server.generate component analysis options).code =
        some (Server.mergeLiterals (Tree.allMarkup trees)) ∧
      Joins (Tree.allMarkup trees) (Server.mergeLiterals (Tree.allMarkup trees)) := by
  obtain ⟨w₁, created, grown⟩ := grown_fragmentsDraft options analysis value component.html
    ⟨Vocabulary.target, 0, 0⟩ sound held (.target 0)
  obtain ⟨new, parent, holds⟩ := grown.parent
  refine ⟨{ w₁ with mounted := true }, new,
    fragmentTrees options.eventMarker analysis component.html, ?_, by rw [parent], ?_, ?_,
    joins_mergeLiterals _⟩
  · rw [methodBody_create]
    exact replay_of_append value created rfl
  · exact Holds.mapM_tree? (w := { w₁ with mounted := true }) holds (Nat.le_add_left _ _)
  · rw [returned?_generate, Server.templateParts_eq,
      allMarkup_fragmentTrees options.eventMarker analysis component.html unchanged]

/-- A list with an item that has a handler and two texts, and another text behind it. -/
def listing : Component where
  html :=
    [.element "ul" [⟨"class", .identifier "c"⟩]
        [.element "li"
          [⟨"on:click", .assignment "=" (.identifier "n") (.verbatim "0" [])⟩,
            ⟨"id", .verbatim "\"i\"" []⟩]
          [.text "n: ", .expression (.identifier "n")] 1] 0,
      .text "!"]
  script := [.declaration .lexical [⟨.identifier "n", some (.verbatim "1" [])⟩]]

/-- A document with nothing but an empty target. -/
def blank : World String where
  size := 1
  node _ := .made (.element "main")
  names name := if name = Vocabulary.target then some 0 else none
  mounted := false

theorem sound_blank : blank.Sound where
  child_lt _ _ mem := absurd mem List.not_mem_nil
  name_lt name n held := by
    simp only [blank, Option.ite_none_right_eq_some, Option.some.injEq] at held
    rw [← held.2]
    decide
  unmade _ _ := ⟨rfl, rfl⟩

theorem server_renders_created_tree_listing :
    (Fragment.allRendered "on:" listing.html).map Script.Expression.print = ["c", "\"i\"", "n"] ∧
    (replay (·.print 0) (methodBody "create"
          (generate listing (listing.analyze "on:").analysis {}).code) blank).map
        (fun w => (List.range w.size).map fun n => (w.node n).children) =
      some [[1, 5], [2], [3, 4], [], [], []] ∧
    ∃ w' new trees,
      replay (·.print 0) (methodBody "create"
        (generate listing (listing.analyze "on:").analysis {}).code) blank = some w' ∧
      (w'.node 0).children = (blank.node 0).children ++ new ∧
      w'.trees? new = some trees ∧
      returned? (Server.generate listing (listing.analyze "on:").analysis {}).code =
        some (Server.mergeLiterals (Tree.allMarkup trees)) ∧
      Joins (Tree.allMarkup trees) (Server.mergeLiterals (Tree.allMarkup trees)) := by
  have rendered : Fragment.allRendered "on:" listing.html =
      [.identifier "c", .verbatim "\"i\"" [], .identifier "n"] := rfl
  have unchanged : ∀ e ∈ Fragment.allRendered "on:" listing.html,
      notifyTemplate (listing.analyze "on:").analysis e = e := by
    rw [rendered]
    rintro e (_ | ⟨_, _ | ⟨_, _ | ⟨_, ⟨⟩⟩⟩⟩)
    · exact notifyExpression_identifier _ _ .start "c"
    · exact notifyExpression_verbatim _ _ .start "\"i\"" []
    · exact notifyExpression_identifier _ _ .start "n"
  refine ⟨by decide +kernel, by decide +kernel, ?_⟩
  exact server_renders_created_tree listing (listing.analyze "on:").analysis {} unchanged
    (·.print 0) blank 0 sound_blank rfl

end ReactiveMarkup.Document
