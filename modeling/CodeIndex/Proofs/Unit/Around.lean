import CodeIndex.Graph.Extract
import CodeIndex.Proofs.Language.Kinds
import CodeIndex.Proofs.Syntax.Ancestors
import CodeIndex.Unit.Collect
import Mathlib.Data.List.Basic
/-!
# The units around a unit

In the flat list of units each refers to the one right around it, so the units around a unit are
found by going from place to place (`above`). They are those that the forest nests it in
(`mapIdx_above_listing`).

In a collected forest the units around a unit stand for the definitions among the ancestors of its
node (`isAround_collect`): wrappers are passed through on the way down, and they are no definitions
themselves.
-/

namespace CodeIndex.UnitTree

open CodeIndex.Syntax

/-! ### The flat list -/

/-- The units around the one at a place of a flat list, the outermost first. -/
def above (es : List Entry) (i : Nat) : List CodeUnit :=
  match es[i]?.bind (·.parent) with
  | none => []
  | some p => if p < i then above es p ++ (es[p]?.map (·.unit)).toList else []
termination_by i

mutual

/-- The units of a tree in the order of the list, each with the units around it. -/
def nests (around : List CodeUnit) : UnitTree → List (List CodeUnit × CodeUnit)
  | node unit nested => (around, unit) :: nestsOfList (around ++ [unit]) nested

/-- The same for several trees. -/
def nestsOfList (around : List CodeUnit) : List UnitTree → List (List CodeUnit × CodeUnit)
  | [] => []
  | tree :: trees => nests around tree ++ nestsOfList around trees

end

mutual

theorem length_entries (next : Nat) (parent : Option Nat) (owner : Option CodeUnit) :
    ∀ tree : UnitTree, (entries next parent owner tree).length = tree.size
  | .node unit nested => by
    rw [entries, List.length_cons, length_entriesOfList, size, Nat.add_comm]

theorem length_entriesOfList (next : Nat) (parent : Option Nat) (owner : Option CodeUnit) :
    ∀ trees : List UnitTree, (entriesOfList next parent owner trees).length = sizeOfList trees
  | [] => rfl
  | tree :: trees => by
    rw [entriesOfList, List.length_append, length_entries, length_entriesOfList, sizeOfList]

end

/-- The unit at `parent` and those above it are `around`; without a parent there are none. -/
def LeadsTo (es : List Entry) (next : Nat) (around : List CodeUnit) : Option Nat → Prop
  | none => around = []
  | some p => p < next ∧ ∃ e, es[p]? = some e ∧ around = above es p ++ [e.unit]

variable {es : List Entry} {next : Nat} {parent : Option Nat} {around : List CodeUnit}

theorem LeadsTo.mono {next' : Nat} (h : LeadsTo es next around parent) (hle : next ≤ next') :
    LeadsTo es next' around parent := by
  cases parent with
  | none => exact h
  | some p => exact ⟨Nat.lt_of_lt_of_le h.1 hle, h.2⟩

/-- Above an entry are its parent and what is above that. -/
theorem above_eq {e : Entry} (h : LeadsTo es next around e.parent) (he : es[next]? = some e) :
    above es next = around := by
  rw [above, he, Option.bind_some]
  cases hparent : e.parent with
  | none =>
    rw [hparent] at h
    exact h.symm
  | some p =>
    rw [hparent] at h
    obtain ⟨hlt, e', he', haround⟩ := h
    rw [haround]
    simp only [if_pos hlt, he', Option.map_some, Option.toList_some]

mutual

/-- In the part of the list that comes from one tree, going up leads through the nesting. -/
theorem mapIdx_above_entries (es : List Entry) (next : Nat) (parent : Option Nat)
    (owner : Option CodeUnit) (around : List CodeUnit) (before rest : List Entry)
    (hnext : before.length = next) (hleads : LeadsTo es next around parent) :
    ∀ tree : UnitTree, es = before ++ entries next parent owner tree ++ rest →
      (entries next parent owner tree).mapIdx (fun j e => (above es (next + j), e.unit))
        = nests around tree
  | .node unit nested, hes => by
    rw [entries] at hes ⊢
    have hhead : es[next]? = some ⟨unit, parent, places (next + 1) nested, owner⟩ := by
      rw [hes, ← hnext, List.append_assoc, List.getElem?_append_right (Nat.le_refl _)]
      simp
    have habove : above es next = around := above_eq hleads hhead
    have hinside : LeadsTo es (next + 1) (around ++ [unit]) (some next) :=
      ⟨Nat.lt_succ_self _, _, hhead, by rw [habove]⟩
    have hnested := mapIdx_above_entriesOfList es (next + 1) (some next) (ownerInside unit owner)
      (around ++ [unit]) (before ++ [⟨unit, parent, places (next + 1) nested, owner⟩]) rest
      (by rw [List.length_append, hnext]; rfl) hinside nested (by rw [hes]; simp)
    rw [List.mapIdx_cons, nests, Nat.add_zero, habove, ← hnested]
    simp only [Nat.add_comm, Nat.add_left_comm]

theorem mapIdx_above_entriesOfList (es : List Entry) (next : Nat) (parent : Option Nat)
    (owner : Option CodeUnit) (around : List CodeUnit) (before rest : List Entry)
    (hnext : before.length = next) (hleads : LeadsTo es next around parent) :
    ∀ trees : List UnitTree, es = before ++ entriesOfList next parent owner trees ++ rest →
      (entriesOfList next parent owner trees).mapIdx (fun j e => (above es (next + j), e.unit))
        = nestsOfList around trees
  | [], _ => rfl
  | tree :: trees, hes => by
    rw [entriesOfList] at hes ⊢
    have hfirst := mapIdx_above_entries es next parent owner around before
      (entriesOfList (next + size tree) parent owner trees ++ rest) hnext hleads tree
      (by rw [hes]; simp only [List.append_assoc])
    have hrest := mapIdx_above_entriesOfList es (next + size tree) parent owner around
      (before ++ entries next parent owner tree) rest
      (by rw [List.length_append, hnext, length_entries])
      (hleads.mono (Nat.le_add_right _ _)) trees
      (by rw [hes]; simp only [List.append_assoc])
    rw [List.mapIdx_append, nestsOfList, hfirst, ← hrest, length_entries]
    simp only [Nat.add_comm, Nat.add_left_comm]

end

/-- Going up in the flat list of a forest leads through its nesting. -/
theorem mapIdx_above_listing (forest : List UnitTree) :
    (listing forest).mapIdx (fun i e => (above (listing forest) i, e.unit))
      = nestsOfList [] forest := by
  have h := mapIdx_above_entriesOfList (listing forest) 0 none none [] [] [] rfl rfl forest
    (by rw [List.nil_append, List.append_nil]; rfl)
  simp only [Nat.zero_add] at h
  exact h

/-- A unit of a flat list and those above it are a unit of the forest and those around it. -/
theorem mem_nestsOfList_of_listing {forest : List UnitTree} {i : Nat} {e : Entry}
    (h : (listing forest)[i]? = some e) :
    (above (listing forest) i, e.unit) ∈ nestsOfList [] forest := by
  rw [← mapIdx_above_listing, List.mem_mapIdx]
  obtain ⟨hi, rfl⟩ := List.getElem?_eq_some_iff.mp h
  exact ⟨i, hi, rfl⟩

/-! ### Collected units -/

theorem mem_nestsOfList {around : List CodeUnit} {p : List CodeUnit × CodeUnit}
    {trees : List UnitTree} :
    p ∈ nestsOfList around trees ↔ ∃ tree ∈ trees, p ∈ nests around tree := by
  induction trees with
  | nil => simp [nestsOfList]
  | cons tree trees ih => simp [nestsOfList, ih]

variable (t : Tree) (source : String)

theorem isType_of_kind? {t : Tree} {kind : String} (h : kind? t kind = some .type) :
    t.profile.isType kind = true := by
  rw [kind?] at h
  split at h
  · cases h
  · split at h
    · assumption
    · split at h <;> cases h

/-- The node is of a kind that defines something. -/
def isDefinition (id : Nat) : Bool :=
  (kind? t (t.kind id)).isSome

/-- The definitions among the ancestors of a node, the nearest first. -/
def definitionsAround (id : Nat) : List Nat :=
  (t.ancestors id).filter (isDefinition t)

/-- The units stand for the definitions around the node, and are named after them. -/
structure IsAround (around : List CodeUnit) (id : Nat) : Prop where
  nodes : definitionsAround t id = (around.map (·.node)).reverse
  names : ∀ u ∈ around, u.name = t.name? u.node source

/-- A unit below a node: where it is, what it defines, its name and what is around it. -/
structure Stands (id : Nat) (p : List CodeUnit × CodeUnit) : Prop where
  around : IsAround t source p.1 p.2.node
  name : p.2.name = t.name? p.2.node source
  kind : kind? t (t.kind p.2.node) = some p.2.kind
  below : p.2.node ∈ t.descendants id

/-- What is around a child: its parent, if that is a definition, and what is around the parent. -/
theorem definitionsAround_of_mem_children {id c : Nat} (h : c ∈ t.children id) :
    definitionsAround t c
      = if isDefinition t id then id :: definitionsAround t id else definitionsAround t id := by
  rw [definitionsAround, t.ancestors_of_mem_children h, List.filter_cons]
  rfl

variable {t source}

theorem Stands.up {id c : Nat} {p : List CodeUnit × CodeUnit} (h : Stands t source c p)
    (hc : c ∈ t.children id) : Stands t source id p where
  around := h.around
  name := h.name
  kind := h.kind
  below := by
    rw [t.descendants_eq]
    exact List.mem_cons_of_mem _ (List.mem_flatMap.mpr ⟨c, hc, h.below⟩)

/-- What is around a node that defines nothing is around its children. -/
theorem IsAround.child {around : List CodeUnit} {id c : Nat} (h : IsAround t source around id)
    (hnone : isDefinition t id = false) (hc : c ∈ t.children id) : IsAround t source around c where
  nodes := by
    rw [definitionsAround_of_mem_children t hc, if_neg (by rw [hnone]; decide)]
    exact h.nodes
  names := h.names

/-- A definition is around its children, with what is around it. -/
theorem IsAround.inside {around : List CodeUnit} {unit : CodeUnit} {c : Nat}
    (h : IsAround t source around unit.node) (hsome : isDefinition t unit.node = true)
    (hname : unit.name = t.name? unit.node source) (hc : c ∈ t.children unit.node) :
    IsAround t source (around ++ [unit]) c where
  nodes := by
    rw [definitionsAround_of_mem_children t hc, if_pos hsome, h.nodes, List.map_append,
      List.reverse_append]
    rfl
  names := by
    intro u hu
    rcases List.mem_append.mp hu with hu | hu
    · exact h.names u hu
    · rw [List.mem_singleton.mp hu]
      exact hname

section Collect

variable (hkinds : t.profile.KindsDisjoint)
include hkinds

/-- What has a field for a definition is none itself. -/
theorem not_isDefinition_of_wrappedField? {id : Nat} {field : String}
    (h : t.profile.wrappedField? (t.kind id) = some field) : isDefinition t id = false := by
  obtain ⟨hfunction, htype, hcontainer⟩ := hkinds.of_wrappedField? h
  rw [isDefinition, kind?, hfunction, htype, hcontainer]
  rfl

/-- A node is its own definition, or it defines nothing and its definition is one of its
children. -/
theorem definition_cases (id : Nat) :
    definition t id = id ∨ isDefinition t id = false ∧ definition t id ∈ t.children id := by
  rw [definition]
  cases hfield : t.profile.wrappedField? (t.kind id) with
  | none => exact Or.inl rfl
  | some field =>
    dsimp only
    cases hchild : t.childByField? id field with
    | none => exact Or.inl rfl
    | some c =>
      exact Or.inr ⟨not_isDefinition_of_wrappedField? hkinds hfield,
        Tree.mem_children_of_childByField? hchild⟩

/-- The units collected at a node stand below it, around each of them what the forest nests it in
and what was around the node. -/
theorem stands_collectAt (id : Nat) : ∀ around, IsAround t source around id →
    ∀ p ∈ nestsOfList around (collectAt t source id), Stands t source id p := by
  induction id using collectAt.induct t source with
  | case1 id hnone ih =>
    intro around haround p hp
    rw [collectAt, hnone] at hp
    obtain ⟨tree, htree, hp⟩ := mem_nestsOfList.mp hp
    simp only [List.mem_flatMap, List.mem_attach, true_and, Subtype.exists] at htree
    obtain ⟨c, hc, htree⟩ := htree
    have hplain : isDefinition t id = false := by
      rcases definition_cases hkinds id with hself | ⟨hplain, -⟩
      · rw [hself] at hnone
        rw [isDefinition, hnone]
        rfl
      · exact hplain
    have hbelow := ih c hc around (haround.child hplain hc) p
      (mem_nestsOfList.mpr ⟨tree, htree, hp⟩)
    exact hbelow.up hc
  | case2 id kind hkind ih =>
    intro around haround p hp
    have hsome : isDefinition t (definition t id) = true := by
      rw [isDefinition, hkind]
      rfl
    -- Stepping from a wrapper to its definition changes nothing of what is around.
    have hstep : IsAround t source around (definition t id) ∧
        ∀ p, Stands t source (definition t id) p → Stands t source id p := by
      rcases definition_cases hkinds id with hself | ⟨hplain, hchild⟩
      · rw [hself]
        exact ⟨haround, fun _ h => h⟩
      · exact ⟨haround.child hplain hchild, fun _ h => h.up hchild⟩
    rw [collectAt, hkind] at hp
    simp only [nestsOfList, nests, List.append_nil, List.mem_cons] at hp
    rcases hp with rfl | hp
    · refine hstep.2 _ ⟨hstep.1, rfl, hkind, ?_⟩
      rw [t.descendants_eq]
      exact List.mem_cons_self
    · obtain ⟨tree, htree, hp⟩ := mem_nestsOfList.mp hp
      simp only [List.mem_flatMap, List.mem_attach, true_and, Subtype.exists] at htree
      obtain ⟨c, hc, htree⟩ := htree
      have hinside := ih c hc _ (hstep.1.inside hsome rfl hc) p
        (mem_nestsOfList.mpr ⟨tree, htree, hp⟩)
      exact hstep.2 p (hinside.up hc)

/-- The units of a tree stand below its root, and what the forest nests them in is what is around
them. -/
theorem stands_collect (hroot : isDefinition t Tree.root = false) {p : List CodeUnit × CodeUnit}
    (hp : p ∈ nestsOfList [] (collect t source)) : Stands t source Tree.root p := by
  have htop : IsAround t source [] Tree.root :=
    ⟨by rw [definitionsAround, t.ancestors_root]; rfl, nofun⟩
  obtain ⟨tree, htree, hp⟩ := mem_nestsOfList.mp hp
  obtain ⟨c, hc, htree⟩ := List.mem_flatMap.mp htree
  exact (stands_collectAt hkinds c [] (htop.child hroot hc) p
    (mem_nestsOfList.mpr ⟨tree, htree, hp⟩)).up hc

end Collect

/-! ### Names -/

theorem definedName?_eq (t : Tree) (source : String) (id : Nat) :
    Graph.definedName? t source id = if isDefinition t id then t.name? id source else none := by
  rw [Graph.definedName?, Graph.isTypeLike, isDefinition, kind?]
  cases t.profile.isFunction (t.kind id) <;> cases t.profile.isType (t.kind id) <;>
    cases t.profile.isContainer (t.kind id) <;> rfl

/-- The names around a node are those of the units around it. -/
theorem IsAround.filterMap_name {around : List CodeUnit} {id : Nat}
    (h : IsAround t source around id) :
    (t.ancestors id).reverse.filterMap (Graph.definedName? t source)
      = around.filterMap (·.name) := by
  have hfilter : (t.ancestors id).reverse.filterMap (Graph.definedName? t source)
      = (definitionsAround t id).reverse.filterMap (t.name? · source) := by
    rw [definitionsAround, ← List.filter_reverse, List.filterMap_filter]
    congr 1
    funext a
    rw [definedName?_eq]
  rw [hfilter, h.nodes, List.reverse_reverse, List.filterMap_map]
  exact List.filterMap_congr fun u hu => (h.names u hu).symm

end CodeIndex.UnitTree
