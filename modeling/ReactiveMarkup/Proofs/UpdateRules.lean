import Mathlib.Data.List.Forall2
import ReactiveMarkup.Proofs.MountedNode
import ReactiveMarkup.Proofs.RecomputationPass

/-!
# Update rules

A site is a place of the rendered markup that holds the value of an expression: the data of an
interpolation, or an attribute that is not a listener. `Fragment.allSites` lists them in walk order,
each with the position of its node. The method `update` holds one rule for each site whose value
may change, in this order. The rule is guarded by a test for the names on which the value depends,
and sets the field of the site to the value that `create` gave it, in the node that `create` mounts
at the position of the site (`Refreshes`).
-/

namespace ReactiveMarkup

/-- What of a node a value is put into. -/
inductive Field
  /-- The data of a text. -/
  | data
  | attribute (name : String)
deriving DecidableEq, Repr

/-- A place of rendered markup that holds the value of an expression. -/
structure Site where
  /-- The position of the node. -/
  position : List Nat
  field : Field
  value : Script.Expression

namespace Site

/-- The site inside the fragment with the given number. -/
def below (k : Nat) (site : Site) : Site := { site with position := k :: site.position }

/-- The site of an attribute of the fragment with the given number. -/
def ofAttribute (k : Nat) (a : Attribute) : Site := ⟨[k], .attribute a.name, a.value⟩

/-- Whether the value of a site reads a name that changes. -/
def changes (analysis : Analysis) (site : Site) : Bool :=
  site.value.references.any analysis.willChange.contains

end Site

namespace Fragment

mutual

/-- The sites of a fragment with the given number, attributes before children. -/
def sites (marker : String) (k : Nat) : Fragment → List Site
  | .element _ attributes children _ =>
    (attributes.filter fun a => (a.event? marker).isNone).map (Site.ofAttribute k) ++
      (allSites marker 0 children).map (Site.below k)
  | .text _ => []
  | .expression e => [⟨[k], .data, e⟩]
termination_by structural f => f

/-- The sites of neighbouring fragments, counted from `k` on. -/
def allSites (marker : String) (k : Nat) : List Fragment → List Site
  | [] => []
  | f :: rest => f.sites marker k ++ allSites marker (k + 1) rest
termination_by structural fs => fs

end

/-- The sites of a fragment itself. -/
def ownSites (marker : String) (k : Nat) : Fragment → List Site
  | .element _ attributes _ _ =>
    (attributes.filter fun a => (a.event? marker).isNone).map (Site.ofAttribute k)
  | .text _ => []
  | .expression e => [⟨[k], .data, e⟩]

theorem sites_eq (marker : String) (k : Nat) (f : Fragment) :
    f.sites marker k =
      f.ownSites marker k ++ (allSites marker 0 f.children).map (Site.below k) := by
  cases f <;> simp [sites, ownSites, children, allSites]

theorem position_of_mem_ownSites {marker : String} {k : Nat} {f : Fragment} {site : Site}
    (mem : site ∈ f.ownSites marker k) : site.position = [k] := by
  cases f with
  | element name attributes children offset =>
    obtain ⟨a, -, rfl⟩ := List.mem_map.1 mem
    rfl
  | text value => cases mem
  | expression e =>
    obtain rfl := List.mem_singleton.1 mem
    rfl

/-- The values of the sites are the rendered expressions. -/
theorem map_value_allSites (marker : String) (k : Nat) (fs : List Fragment) :
    (allSites marker k fs).map Site.value = allRendered marker fs := by
  induction fs using Fragment.induction generalizing k with
  | nil => rfl
  | cons f rest inner behind =>
    rw [allSites, allRendered, List.map_append, behind]
    congr 1
    cases f with
    | element name attributes children offset =>
      have below := inner 0
      rw [Fragment.children] at below
      rw [sites, rendered, List.map_append, List.map_map, List.map_map, ← below]
      rfl
    | text value => rfl
    | expression e => rfl

end Fragment

namespace Client

open Emission (Statement Expression)
open Document (action?)
open Recomputation (Value evaluate evaluate_changedTest_of_batch)

/-! ## Reading the methods -/

/-- What a statement of `create` puts into which field of which node. -/
def filling? (s : Statement) : Option (String × Field × Expression) :=
  match action? s with
  | some (.make binding (.text data)) => some (binding, .data, data)
  | some (.set node name value) => some (node, .attribute name, value)
  | _ => none

/-- What a statement of `update` puts into which field of which node. -/
def setting? : Statement → Option (String × Field × Expression)
  | .expression (.assign (.member (.identifier node) "data") value) => some (node, .data, value)
  | .expression (.call (.member (.identifier node) "setAttribute") [.text name, value]) =>
    some (node, .attribute name, value)
  | _ => none

/-- Whether a test holds of a batch of changed names just if the value of a site depends on one of
them. -/
def Watches (analysis : Analysis) (site : Site) (test : Expression) : Prop :=
  ∀ (environment : String → Option Value) (batch : List String),
    environment Vocabulary.changed = some (.texts batch) →
    ∃ fires, evaluate environment test = some (.truth fires) ∧
      (fires = true ↔
        ∃ name ∈ batch, name ∈ site.value.references ∧ name ∈ analysis.willChange)

/-- What a rule does for a site: guarded by a test for the names on which the value depends, it puts
the value into the field of the node that is mounted at the position of the site, as `create`
does. -/
def Refreshes (analysis : Analysis) (create : List Statement) (parent : String) (site : Site)
    (s : Statement) : Prop :=
  ∃ names node apply,
    s = .guarded (changedTest names Vocabulary.changed) [apply] ∧
    (∀ name, name ∈ names ↔ name ∈ site.value.references ∧ name ∈ analysis.willChange) ∧
    Watches analysis site (changedTest names Vocabulary.changed) ∧
    bindingAt? create parent site.position = some node ∧
    setting? apply = some (node, site.field, embed (notifyTemplate analysis site.value)) ∧
    ∃ s' ∈ create, filling? s' = setting? apply

/-- Whether the names on which the value of a site depends are notified by every mutation of them
that concerns the root. -/
def Notifiable (analysis : Analysis) (site : Site) : Prop :=
  ∀ name ∈ site.value.references, name ∈ analysis.willChange →
    name ∈ analysis.invalidated ∧
    ∀ e scope, name ∈ e.mutatedNames → analysis.scopes.isRootOrFree scope name = true →
      name ∈ notifiedNames analysis.scopes analysis.invalidated e scope

/-! ## Rules -/

@[simp] theorem update_append (x y : Draft) : (x ++ y).update = x.update ++ y.update := rfl

section

variable {options : Options} (analysis : Analysis)

/-- The statement that puts the value of a site into its node. -/
def assignSite (node : String) (site : Site) : Statement :=
  let value := embed (notifyTemplate analysis site.value)
  match site.field with
  | .data => .expression (.assign (.member (.identifier node) "data") value)
  | .attribute name => invoke node "setAttribute" [.text name, value]

theorem setting?_assignSite (node : String) (site : Site) :
    setting? (assignSite analysis node site) =
      some (node, site.field, embed (notifyTemplate analysis site.value)) := by
  obtain ⟨position, field, value⟩ := site
  cases field <;> rfl

/-- The rules of some sites of one node. -/
def siteRules (node : String) (sites : List Site) : List Statement :=
  sites.flatMap fun site => updateRule analysis site.value (assignSite analysis node site)

theorem update_attributesDraft (element node : String) (attributes : List Attribute)
    (count k : Nat) :
    (attributesDraft options analysis element node attributes count).1.update =
      siteRules analysis node ((attributes.filter fun a =>
        (a.event? options.eventMarker).isNone).map (Site.ofAttribute k)) := by
  induction attributes generalizing count with
  | nil => rfl
  | cons a rest ih =>
    rw [attributesDraft, update_append, ih]
    cases event : a.event? options.eventMarker with
    | none =>
      rw [List.filter_cons_of_pos (by simp [event]), List.map_cons]
      rfl
    | some name =>
      have none : (eventDraft analysis element node name a count).1.update = [] := by
        unfold eventDraft
        split <;> rfl
      rw [List.filter_cons_of_neg (by simp [event])]
      show (eventDraft analysis element node name a count).1.update ++ _ = _
      rw [none, List.nil_append]

/-- The rules of a fragment are those of its own sites and those inside. -/
theorem update_fragmentDraft (place : Place) (count k : Nat) (f : Fragment) :
    (fragmentDraft options analysis place count f).1.update =
      siteRules analysis (nodeBinding count f) (f.ownSites options.eventMarker k) ++
        (innerDraft options analysis place count f).update := by
  cases f with
  | element name attributes children offset =>
    rw [fragmentDraft, update_append, update_append, update_attributesDraft _ _ _ _ _ k]
    rfl
  | text value => rfl
  | expression e =>
    let rule := updateRule analysis e
      (assignSite analysis (nodeBinding count (.expression e)) ⟨[k], .data, e⟩)
    show rule = (rule ++ []) ++ []
    rw [List.append_nil, List.append_nil]

/-- The attributes that are rendered are set. -/
theorem setAttribute_mem_create (element node : String) {attributes : List Attribute} (count : Nat)
    {a : Attribute} (mem : a ∈ attributes) (plain : a.event? options.eventMarker = none) :
    invoke node "setAttribute" [.text a.name, embed (notifyTemplate analysis a.value)] ∈
      (attributesDraft options analysis element node attributes count).1.create := by
  induction attributes generalizing count with
  | nil => cases mem
  | cons b rest ih =>
    rw [attributesDraft, create_append, List.mem_append]
    rcases List.mem_cons.1 mem with rfl | mem
    · rw [plain]
      exact .inl List.mem_cons_self
    · exact .inr (ih _ mem)

/-- The own sites of a fragment are filled when its node is created. -/
theorem exists_filling (place : Place) (count k : Nat) {f : Fragment} {site : Site}
    (mem : site ∈ f.ownSites options.eventMarker k) :
    ∃ s ∈ (fragmentDraft options analysis place count f).1.create,
      filling? s =
        some (nodeBinding count f, site.field, embed (notifyTemplate analysis site.value)) := by
  cases f with
  | element name attributes children offset =>
    obtain ⟨a, listed, rfl⟩ := List.mem_map.1 mem
    obtain ⟨mem, plain⟩ := List.mem_filter.1 listed
    have set := setAttribute_mem_create analysis name (bindingName name (count + 1)) (count + 1) mem
      (Option.isNone_iff_eq_none.1 plain)
    exact ⟨_, List.mem_append_left _ (List.mem_append_right _ set), rfl⟩
  | text value => cases mem
  | expression e =>
    obtain rfl := List.mem_singleton.1 mem
    refine ⟨_, List.mem_append_left _ List.mem_cons_self, ?_⟩
    rw [filling?, Document.action?_assignTo, Document.assignment?_adoptOrCreate,
      Document.assignment?_createTextNode]
    rfl

/-- There is a rule if a name changes that the value of a site reads. -/
theorem updateRule_eq (site : Site) (apply : Statement) :
    updateRule analysis site.value apply =
      if site.changes analysis then
        [.guarded (changedTest (site.value.references.filter analysis.willChange.contains)
          Vocabulary.changed) [apply]]
      else [] := by
  unfold updateRule Site.changes
  split
  next none =>
    rw [if_neg]
    simpa using List.filter_eq_nil_iff.1 none
  next name names some =>
    have mem : name ∈ site.value.references.filter analysis.willChange.contains := by
      rw [some]
      exact List.mem_cons_self
    rw [if_pos (List.any_eq_true.2 ⟨name, List.mem_filter.1 mem⟩), some]

theorem watches_changedTest {site : Site} {names : List String}
    (watched : ∀ name, name ∈ names ↔ name ∈ site.value.references ∧ name ∈ analysis.willChange) :
    Watches analysis site (changedTest names Vocabulary.changed) := by
  intro environment batch told
  refine ⟨_, evaluate_changedTest_of_batch told names, ?_⟩
  simp only [List.any_eq_true, decide_eq_true_eq, watched]
  constructor
  · rintro ⟨name, depends, mem⟩
    exact ⟨name, mem, depends⟩
  · rintro ⟨name, mem, depends⟩
    exact ⟨name, depends, mem⟩

theorem refreshes_of_changes {create : List Statement} {parent node : String} {site : Site}
    (mounted : bindingAt? create parent site.position = some node)
    (filled : ∃ s ∈ create, filling? s =
      some (node, site.field, embed (notifyTemplate analysis site.value))) :
    Refreshes analysis create parent site
      (.guarded (changedTest (site.value.references.filter analysis.willChange.contains)
        Vocabulary.changed) [assignSite analysis node site]) := by
  have watched : ∀ name, name ∈ site.value.references.filter analysis.willChange.contains ↔
      name ∈ site.value.references ∧ name ∈ analysis.willChange := by
    intro name
    rw [List.mem_filter, NameSet.contains_iff]
  refine ⟨_, node, _, rfl, watched, watches_changedTest analysis watched, mounted,
    setting?_assignSite analysis node site, ?_⟩
  rw [setting?_assignSite]
  exact filled

/-- Of some sites of a node, those that change have a rule each. -/
theorem forall₂_siteRules {create : List Statement} {parent node : String} {sites : List Site}
    (mounted : ∀ site ∈ sites, bindingAt? create parent site.position = some node)
    (filled : ∀ site ∈ sites, ∃ s ∈ create, filling? s =
      some (node, site.field, embed (notifyTemplate analysis site.value))) :
    List.Forall₂ (Refreshes analysis create parent) (sites.filter (·.changes analysis))
      (siteRules analysis node sites) := by
  induction sites with
  | nil => exact .nil
  | cons site rest ih =>
    have others := ih (fun s mem => mounted s (List.mem_cons_of_mem _ mem))
      fun s mem => filled s (List.mem_cons_of_mem _ mem)
    have rule := refreshes_of_changes analysis (mounted site List.mem_cons_self)
      (filled site List.mem_cons_self)
    show List.Forall₂ _ _ (updateRule analysis site.value (assignSite analysis node site) ++
      siteRules analysis node rest)
    rw [updateRule_eq, List.filter_cons]
    by_cases changes : site.changes analysis = true
    · rw [if_pos changes, if_pos changes]
      exact .cons rule others
    · rw [if_neg changes, if_neg changes]
      exact others

theorem Refreshes.below {create : List Statement} {parent node : String} {k : Nat} {site : Site}
    {s : Statement} (found : (mountedOn create parent)[k]? = some node)
    (h : Refreshes analysis create node site s) :
    Refreshes analysis create parent (site.below k) s := by
  obtain ⟨names, binding, apply, eq, watched, watches, mounted, sets, filled⟩ := h
  refine ⟨names, binding, apply, eq, watched, watches, ?_, sets, filled⟩
  rw [Site.below, bindingAt?, found, Option.bind_some]
  exact mounted

/-- The rules of neighbouring fragments are those of their sites, in order. -/
theorem forall₂_fragmentsDraft (fs : List Fragment) {create : List Statement} (place : Place)
    {count k : Nat}
    (h : Embedded create place.parent k (fragmentsDraft options analysis place count fs).1) :
    List.Forall₂ (Refreshes analysis create place.parent)
      ((Fragment.allSites options.eventMarker k fs).filter (·.changes analysis))
      (fragmentsDraft options analysis place count fs).1.update := by
  induction fs using Fragment.induction generalizing place count k with
  | nil => exact .nil
  | cons f rest inner behind =>
    have node : ∀ site ∈ f.ownSites options.eventMarker k,
        bindingAt? create place.parent site.position = some (nodeBinding count f) := by
      intro site mem
      rw [Fragment.position_of_mem_ownSites mem]
      exact bindingAt?_cons h.node []
    -- each site of the fragment is filled by a statement of `create`
    have filled : ∀ site ∈ f.ownSites options.eventMarker k, ∃ s ∈ create, filling? s =
        some (nodeBinding count f, site.field, embed (notifyTemplate analysis site.value)) := by
      intro site mem
      obtain ⟨s, listed, fills⟩ := exists_filling analysis place count k mem
      exact ⟨s, h.subset (List.mem_append_left _ listed), fills⟩
    have own := forall₂_siteRules analysis node filled
    have inside := inner ⟨nodeBinding count f, 0, place.depth + 1⟩ h.inside
    have others := behind { place with index := place.index + f.width } h.behind
    rw [Fragment.allSites, Fragment.sites_eq, List.filter_append, List.filter_append,
      List.filter_map, fragmentsDraft, update_append, update_fragmentDraft analysis place count k]
    refine List.rel_append (List.rel_append own ?_) others
    rw [List.forall₂_map_left_iff]
    exact inside.imp fun site s rule => Refreshes.below analysis h.node rule

end

/-- What the rendered markup reads and what changes is notified. -/
theorem notifiable_of_mem_allSites {component : Component} {marker : String} {site : Site}
    (mem : site ∈ Fragment.allSites marker 0 component.html) :
    Notifiable (component.analyze marker).analysis site := by
  intro name reads _
  have rendered : site.value ∈ Fragment.allRendered marker component.html := by
    rw [← Fragment.map_value_allSites marker 0]
    exact List.mem_map_of_mem mem
  have used : name ∈ (component.analyze marker).analysis.usedInTemplate :=
    NameSet.mem_ofList.2 (List.mem_flatMap.2 ⟨site.value, rendered, reads⟩)
  have invalidated : name ∈ (component.analyze marker).analysis.invalidated :=
    NameSet.mem_insertAll.2 (.inr used)
  refine ⟨invalidated, fun e scope written root => ?_⟩
  refine List.mem_filter.2 ⟨written, ?_⟩
  rw [Bool.and_eq_true]
  exact ⟨NameSet.contains_iff.2 invalidated, root⟩

/-- **Update rules are exact.** The method `update` holds one rule for each site whose value may
change, in walk order, and nothing else. A rule fires for the batches that hold a name on which the
value depends, and then puts the value into the node of the site as `create` does; each node has a
binding of its own. The names that a rule tests are notified. -/
theorem update_rules_exact (component : Component) (options : Options) :
    let analysis := (component.analyze options.eventMarker).analysis
    let code := (generate (component.analyze options.eventMarker).component analysis options).code
    (∃ nodes : List String, nodes.Nodup ∧
      (Fragment.allPositions 0 component.html).map
        (bindingAt? (methodBody "create" code) Vocabulary.target) = nodes.map some) ∧
    List.Forall₂
      (fun site s => Notifiable analysis site ∧
        Refreshes analysis (methodBody "create" code) Vocabulary.target site s)
      ((Fragment.allSites options.eventMarker 0 component.html).filter (·.changes analysis))
      (methodBody "update" code) := by
  intro analysis code
  have embedded := embedded_documentDraft (component.analyze options.eventMarker).component analysis
    options
  constructor
  · obtain ⟨nodes, among, found⟩ := map_bindingAt?_allPositions component.html
      ⟨Vocabulary.target, 0, 0⟩ embedded
    exact ⟨nodes, embedded.nodup.sublist among, found⟩
  · rw [List.forall₂_and_left, methodBody_update]
    refine ⟨fun site mem => notifiable_of_mem_allSites (List.mem_filter.1 mem).1, ?_⟩
    exact forall₂_fragmentsDraft analysis component.html ⟨Vocabulary.target, 0, 0⟩ embedded

end Client

end ReactiveMarkup
