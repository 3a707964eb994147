import CodeIndex.Proofs.Syntax.Descendants
import CodeIndex.Proofs.Unit.Places
import Mathlib.Data.List.Basic
/-!
# The nesting of definitions

Which nodes of a syntax tree are units, and how the units nest, can be told from the tree alone. A
definition that stands below a wrapper, but not in what it wraps, is passed over (`IsPassedOver`).
The other definitions below the root are the units (`IsUnit`), in the order of a walk from the root,
each inside those of its ancestors that are units.

`collect_nests` says that this is the forest that is collected, and what it means for the references
in the flat list of units. It rests on the invariant of the walk (`IsVisited`): no node that is
visited is passed over, and to a wrapped definition the walk comes through its wrapper.
-/

namespace CodeIndex.UnitTree

open CodeIndex.Syntax

variable (t : Tree) (source : String)

/-! ### Wrappers -/

/-- What a node wraps; the root is no wrapper. -/
def wrapped? (w : Nat) : Option Nat :=
  if w = Tree.root then none
  else (t.profile.wrappedField? (t.kind w)).bind (t.childByField? w)

/-- The wrapper of a node, or the node itself when it is not wrapped. -/
def outer (d : Nat) : Nat :=
  match t.parent? d with
  | none => d
  | some w => if wrapped? t w = some d then w else d

/-- Below a wrapper of a definition, but neither that definition nor inside it. -/
def IsPassedOver (d : Nat) : Prop :=
  ∃ w ∈ t.ancestors d, ∃ c ∈ wrapped? t w, isDefinition t c ∧ c ∉ d :: t.ancestors d

instance : DecidablePred (IsPassedOver t) := fun d =>
  inferInstanceAs (Decidable (∃ w ∈ t.ancestors d, _))

/-! ### Units -/

/-- The node is the definition of a unit, if it is below the root at all. -/
structure IsUnit (d : Nat) : Prop where
  ne_root : d ≠ Tree.root
  isDefinition : isDefinition t d = true
  not_passed_over : ¬ IsPassedOver t d

theorem isUnit_iff {d : Nat} :
    IsUnit t d ↔ d ≠ Tree.root ∧ isDefinition t d = true ∧ ¬ IsPassedOver t d :=
  ⟨fun ⟨hroot, hdef, hover⟩ => ⟨hroot, hdef, hover⟩,
    fun ⟨hroot, hdef, hover⟩ => ⟨hroot, hdef, hover⟩⟩

instance : DecidablePred (IsUnit t) := fun _ =>
  decidable_of_iff _ (isUnit_iff t).symm

/-- The nodes of the units in the order of a walk from the root. -/
def unitNodes : List Nat :=
  (t.descendants Tree.root).filter (IsUnit t ·)

/-- The unit of a definition. It has the lines of what is wrapped around the definition, too. -/
def unitAt (d : Nat) : CodeUnit where
  node := d
  kind := (kind? t (t.kind d)).getD default
  name := t.name? d source
  startLine := leadingStart t (outer t d)
  endLine := (t.node (outer t d)).endLine

/-- The units of a node's ancestors, the nearest first. -/
def unitsAbove (d : Nat) : List CodeUnit :=
  ((t.ancestors d).filter (IsUnit t ·)).map (unitAt t source)

/-- The units of some nodes, each with the units around it, the outermost first. -/
def unitsAmong (ids : List Nat) : List (List CodeUnit × CodeUnit) :=
  (ids.filter (IsUnit t ·)).map fun d => ((unitsAbove t source d).reverse, unitAt t source d)

theorem unitsAmong_cons_of_not {id : Nat} (h : ¬ IsUnit t id) (ids : List Nat) :
    unitsAmong t source (id :: ids) = unitsAmong t source ids := by
  rw [unitsAmong, List.filter_cons_of_neg (by simpa using h)]
  rfl

theorem unitsAmong_cons {id : Nat} (h : IsUnit t id) (ids : List Nat) :
    unitsAmong t source (id :: ids)
      = ((unitsAbove t source id).reverse, unitAt t source id) :: unitsAmong t source ids := by
  rw [unitsAmong, List.filter_cons_of_pos (by simpa using h), List.map_cons]
  rfl

theorem unitsAmong_flatMap (ids : List Nat) (f : Nat → List Nat) :
    unitsAmong t source (ids.flatMap f) = ids.flatMap fun c => unitsAmong t source (f c) := by
  rw [unitsAmong, List.filter_flatMap, List.map_flatMap]
  rfl

variable {t source}

theorem not_isUnit {id : Nat} (h : isDefinition t id = false) : ¬ IsUnit t id := fun hid =>
  Bool.false_ne_true (h.symm.trans hid.isDefinition)

theorem mem_children_of_wrapped? {w c : Nat} (h : wrapped? t w = some c) : c ∈ t.children w := by
  rw [wrapped?] at h
  split at h
  · cases h
  · obtain ⟨field, -, hfield⟩ := Option.bind_eq_some_iff.mp h
    exact Tree.mem_children_of_childByField? hfield

theorem outer_of_wrapped? {w d : Nat} (h : wrapped? t w = some d) : outer t d = w := by
  have hparent := Tree.mem_children.mp (mem_children_of_wrapped? h)
  simp only [outer, hparent, h, ↓reduceIte]

theorem outer_of_not_wrapped {p d : Nat} (hd : d ∈ t.children p) (h : wrapped? t p ≠ some d) :
    outer t d = d := by
  simp only [outer, Tree.mem_children.mp hd, if_neg h]

/-- A child is passed over with its parent, or because the parent wraps another definition. -/
theorem isPassedOver_child {p c : Nat} (hc : c ∈ t.children p) :
    IsPassedOver t c ↔
      IsPassedOver t p ∨ ∃ x ∈ wrapped? t p, isDefinition t x ∧ x ≠ c := by
  have hpc := Tree.mem_children.mp hc
  -- What a farther ancestor wraps is not the child, and what the parent wraps is not above it.
  have hfar : ∀ w ∈ t.ancestors p, ∀ x ∈ wrapped? t w, x ≠ c := by
    rintro w hw x hx rfl
    have hwx := Tree.mem_children.mp (mem_children_of_wrapped? hx)
    obtain rfl := Option.some.inj (hpc.symm.trans hwx)
    exact Nat.lt_irrefl _ (t.lt_of_mem_ancestors hw)
  have hnear : ∀ x ∈ wrapped? t p, x ∉ p :: t.ancestors p := by
    intro x hx hmem
    have hlt := Tree.lt_of_mem_children (mem_children_of_wrapped? hx)
    rcases List.mem_cons.mp hmem with rfl | hmem
    · exact Nat.lt_irrefl _ hlt
    · exact Nat.lt_asymm hlt (t.lt_of_mem_ancestors hmem)
  rw [IsPassedOver, t.ancestors_of_mem_children hc]
  constructor
  · rintro ⟨w, hw, x, hx, hdef, hnot⟩
    rcases List.mem_cons.mp hw with rfl | hw
    · exact Or.inr ⟨x, hx, hdef, List.ne_of_not_mem_cons hnot⟩
    · exact Or.inl ⟨w, hw, x, hx, hdef, List.not_mem_of_not_mem_cons hnot⟩
  · rintro (⟨w, hw, x, hx, hdef, hnot⟩ | ⟨x, hx, hdef, hne⟩)
    · exact ⟨w, List.mem_cons_of_mem _ hw, x, hx, hdef,
        List.not_mem_cons_of_ne_of_not_mem (hfar w hw x hx) hnot⟩
    · exact ⟨p, List.mem_cons_self, x, hx, hdef,
        List.not_mem_cons_of_ne_of_not_mem hne (hnear x hx)⟩

/-- The definition that a node wraps is a unit, unless the node is passed over. -/
theorem isUnit_of_wrapped? {w d : Nat} (hw : ¬ IsPassedOver t w) (hwrapped : wrapped? t w = some d)
    (hd : isDefinition t d = true) : IsUnit t d := by
  have hdw := mem_children_of_wrapped? hwrapped
  refine ⟨Nat.ne_zero_of_lt (Tree.lt_of_mem_children hdw), hd, ?_⟩
  rw [isPassedOver_child hdw, hwrapped]
  rintro (hover | ⟨x, hx, -, hne⟩)
  · exact hw hover
  · exact hne (Option.some.inj hx).symm

/-- Below what is passed over, everything is. -/
theorem isPassedOver_of_mem_descendants {c : Nat} (h : IsPassedOver t c) :
    ∀ x ∈ t.descendants c, IsPassedOver t x := by
  induction c using Tree.descendants.induct t with
  | case1 c ih =>
    intro x hx
    rw [t.descendants_eq] at hx
    rcases List.mem_cons.mp hx with rfl | hx
    · exact h
    · obtain ⟨k, hk, hx⟩ := List.mem_flatMap.mp hx
      exact ih k hk ((isPassedOver_child hk).mpr (Or.inl h)) x hx

theorem not_isPassedOver_root : ¬ IsPassedOver t Tree.root := by
  rintro ⟨w, hw, -⟩
  rw [t.ancestors_root] at hw
  cases hw

variable (t source) in
/-- Above a child is its parent, if that is a unit, and what is above the parent. -/
theorem unitsAbove_child {p c : Nat} (hc : c ∈ t.children p) :
    unitsAbove t source c
      = if IsUnit t p then unitAt t source p :: unitsAbove t source p
        else unitsAbove t source p := by
  rw [unitsAbove, t.ancestors_of_mem_children hc, List.filter_cons]
  by_cases hp : IsUnit t p
  · rw [if_pos (by simpa using hp), if_pos hp]
    rfl
  · rw [if_neg (by simpa using hp), if_neg hp]
    rfl

/-! ### The invariant of the walk -/

variable (t) in
/-- What holds of every node that the walk comes to. -/
structure IsVisited (id : Nat) : Prop where
  ne_root : id ≠ Tree.root
  not_passed_over : ¬ IsPassedOver t id
  /-- The walk comes to a wrapped definition through its wrapper. -/
  outer_eq : isDefinition t id → outer t id = id

/-- The walk goes on to the children of a node that wraps no definition. -/
theorem isVisited_child {p c : Nat} (hp : ¬ IsPassedOver t p)
    (hplain : ∀ x ∈ wrapped? t p, isDefinition t x = false) (hc : c ∈ t.children p) :
    IsVisited t c where
  ne_root := Nat.ne_zero_of_lt (Tree.lt_of_mem_children hc)
  not_passed_over := by
    rw [isPassedOver_child hc]
    rintro (h | ⟨x, hx, hdef, -⟩)
    · exact hp h
    · exact Bool.false_ne_true ((hplain x hx).symm.trans hdef)
  outer_eq := by
    intro hdef
    refine outer_of_not_wrapped hc fun h => ?_
    exact Bool.false_ne_true ((hplain c h).symm.trans hdef)

/-- Outside the root, the definition of a node is what it wraps, or the node itself. -/
theorem definition_eq {id : Nat} (h : id ≠ Tree.root) :
    definition t id = (wrapped? t id).getD id := by
  rw [definition, wrapped?, if_neg h]
  cases t.profile.wrappedField? (t.kind id) <;> rfl

/-! ### The walk -/

theorem collectAt_of_not_isDefinition {id : Nat} (h : isDefinition t (definition t id) = false) :
    collectAt t source id = (t.children id).flatMap (collectAt t source) := by
  have hkind := Option.not_isSome_iff_eq_none.mp (Bool.eq_false_iff.mp h)
  rw [collectAt, hkind]
  simp

/-- At a node that stands for a definition, the unit of the definition is collected. -/
theorem collectAt_of_isDefinition {id d : Nat} (hid : definition t id = d) (houter : outer t d = id)
    (hd : isDefinition t d = true) :
    collectAt t source id
      = [.node (unitAt t source d) ((t.children d).flatMap (collectAt t source))] := by
  subst hid
  obtain ⟨kind, hkind⟩ := Option.isSome_iff_exists.mp hd
  rw [collectAt, hkind, unitAt, houter, hkind]
  simp

theorem nestsOfList_append (around : List CodeUnit) (trees trees' : List UnitTree) :
    nestsOfList around (trees ++ trees')
      = nestsOfList around trees ++ nestsOfList around trees' := by
  induction trees with
  | nil => rfl
  | cons tree trees ih => rw [List.cons_append, nestsOfList, nestsOfList, ih, List.append_assoc]

theorem nestsOfList_flatMap (around : List CodeUnit) (ids : List Nat)
    (f : Nat → List UnitTree) :
    nestsOfList around (ids.flatMap f) = ids.flatMap fun c => nestsOfList around (f c) := by
  induction ids with
  | nil => rfl
  | cons c ids ih => rw [List.flatMap_cons, List.flatMap_cons, nestsOfList_append, ih]

/-- What is collected at a node, with what is around it, are the units at and below the node. -/
def CollectsAt (t : Tree) (source : String) (id : Nat) : Prop :=
  nestsOfList (unitsAbove t source id).reverse (collectAt t source id)
    = unitsAmong t source (t.descendants id)

/-- What is collected below a node. -/
theorem nestsOfList_children {p : Nat} {around : List CodeUnit}
    (haround : ∀ c ∈ t.children p, (unitsAbove t source c).reverse = around)
    (h : ∀ c ∈ t.children p, CollectsAt t source c) :
    nestsOfList around ((t.children p).flatMap (collectAt t source))
      = unitsAmong t source ((t.children p).flatMap t.descendants) := by
  rw [nestsOfList_flatMap, unitsAmong_flatMap]
  refine List.flatMap_congr fun c hc => ?_
  rw [← haround c hc]
  exact h c hc

/-- Below a wrapper of a definition, all units are that definition and those inside it. -/
theorem unitsAmong_descendants_of_wrapped? {w d : Nat} (hw : ¬ IsUnit t w)
    (hwrapped : wrapped? t w = some d) (hd : isDefinition t d = true) :
    unitsAmong t source (t.descendants w) = unitsAmong t source (t.descendants d) := by
  have hdw := mem_children_of_wrapped? hwrapped
  have hother : ∀ c ∈ t.children w, c ≠ d → unitsAmong t source (t.descendants c) = [] := by
    intro c hc hne
    have hover := (isPassedOver_child hc).mpr (Or.inr ⟨d, hwrapped, hd, hne.symm⟩)
    rw [unitsAmong, List.map_eq_nil_iff, List.filter_eq_nil_iff]
    intro x hx hunit
    exact (of_decide_eq_true hunit).not_passed_over (isPassedOver_of_mem_descendants hover x hx)
  obtain ⟨before, after, hchildren⟩ := List.append_of_mem hdw
  have hnodup := t.nodup_children w
  rw [t.descendants_eq, unitsAmong_cons_of_not t source hw, unitsAmong_flatMap]
  rw [hchildren] at hother hnodup ⊢
  have hnot := (List.nodup_cons.mp (List.nodup_middle.mp hnodup)).1
  rw [List.mem_append, not_or] at hnot
  have hbefore := List.flatMap_eq_nil_iff.mpr fun c hc =>
    hother c (List.mem_append_left _ hc) (ne_of_mem_of_not_mem hc hnot.1)
  have hafter := List.flatMap_eq_nil_iff.mpr fun c hc =>
    hother c (List.mem_append_right _ (List.mem_cons_of_mem _ hc)) (ne_of_mem_of_not_mem hc hnot.2)
  rw [List.flatMap_append, List.flatMap_cons, hbefore, hafter, List.nil_append, List.append_nil]

/-- A node that stands for no definition adds nothing to what is below it. -/
theorem collectsAt_of_not_isDefinition {id : Nat} (hnone : isDefinition t (definition t id) = false)
    (hid : ¬ IsUnit t id) (h : ∀ c ∈ t.children id, CollectsAt t source c) :
    CollectsAt t source id := by
  have haround : ∀ c ∈ t.children id,
      (unitsAbove t source c).reverse = (unitsAbove t source id).reverse := by
    intro c hc
    rw [unitsAbove_child t source hc, if_neg hid]
  rw [CollectsAt, collectAt_of_not_isDefinition hnone, t.descendants_eq,
    unitsAmong_cons_of_not t source hid]
  exact nestsOfList_children haround h

/-- A unit stands around what is collected inside it. -/
theorem nests_unit {d : Nat} (hd : IsUnit t d) (h : ∀ c ∈ t.children d, CollectsAt t source c) :
    nests (unitsAbove t source d).reverse
        (.node (unitAt t source d) ((t.children d).flatMap (collectAt t source)))
      = unitsAmong t source (t.descendants d) := by
  have haround : ∀ c ∈ t.children d, (unitsAbove t source c).reverse
      = (unitsAbove t source d).reverse ++ [unitAt t source d] := by
    intro c hc
    rw [unitsAbove_child t source hc, if_pos hd, List.reverse_cons]
  rw [nests, nestsOfList_children haround h, t.descendants_eq, unitsAmong_cons t source hd]

theorem collectsAt_of_isUnit {d : Nat} (hd : IsUnit t d) (hself : definition t d = d)
    (houter : outer t d = d) (h : ∀ c ∈ t.children d, CollectsAt t source c) :
    CollectsAt t source d := by
  rw [CollectsAt, collectAt_of_isDefinition hself houter hd.isDefinition, nestsOfList,
    nestsOfList, List.append_nil]
  exact nests_unit hd h

/-- A wrapper stands for the unit of the definition that it wraps. -/
theorem collectsAt_of_wrapped? {w d : Nat} (hw : ¬ IsUnit t w) (hwrapped : wrapped? t w = some d)
    (hdefinition : definition t w = d) (hd : IsUnit t d)
    (h : ∀ c ∈ t.children d, CollectsAt t source c) : CollectsAt t source w := by
  have habove := unitsAbove_child t source (mem_children_of_wrapped? hwrapped)
  rw [if_neg hw] at habove
  rw [CollectsAt, collectAt_of_isDefinition hdefinition (outer_of_wrapped? hwrapped)
    hd.isDefinition, nestsOfList, nestsOfList, List.append_nil, ← habove,
    unitsAmong_descendants_of_wrapped? hw hwrapped hd.isDefinition]
  exact nests_unit hd h

section Collect

variable (hkinds : t.profile.KindsDisjoint)
include hkinds

/-- What wraps something is no definition. -/
theorem not_isDefinition_of_wrapped? {w c : Nat} (h : wrapped? t w = some c) :
    isDefinition t w = false := by
  rw [wrapped?] at h
  split at h
  · cases h
  · obtain ⟨field, hfield, -⟩ := Option.bind_eq_some_iff.mp h
    exact not_isDefinition_of_wrappedField? hkinds hfield

/-- The walk goes on to the children of a unit. -/
theorem isVisited_of_isUnit {d c : Nat} (hd : IsUnit t d) (hc : c ∈ t.children d) :
    IsVisited t c := by
  refine isVisited_child hd.not_passed_over (fun x hx => ?_) hc
  exact absurd hd (not_isUnit (not_isDefinition_of_wrapped? hkinds hx))

/-- At every node that the walk comes to, it collects the units at and below the node. -/
theorem collectsAt_of_isVisited (id : Nat) : IsVisited t id → CollectsAt t source id := by
  induction id using collectAt.induct t source with
  | case1 id hnone ih =>
    -- No unit here: if the node wraps something, that is no definition, and all children are
    -- visited.
    intro hid
    have hdef : isDefinition t (definition t id) = false := by
      rw [isDefinition, hnone]
      rfl
    have hwrapped := hdef
    rw [definition_eq hid.ne_root] at hwrapped
    have hplain : ∀ x ∈ wrapped? t id, isDefinition t x = false := by
      intro x hx
      rw [Option.mem_def.mp hx] at hwrapped
      exact hwrapped
    have hunit : ¬ IsUnit t id := by
      refine not_isUnit ?_
      cases h : wrapped? t id with
      | none =>
        rw [h] at hwrapped
        exact hwrapped
      | some x => exact not_isDefinition_of_wrapped? hkinds h
    exact collectsAt_of_not_isDefinition hdef hunit fun c hc =>
      ih c hc (isVisited_child hid.not_passed_over hplain hc)
  | case2 id kind hkind ih =>
    -- The unit is that of the node itself or of what it wraps; the walk goes on inside the unit.
    intro hid
    have hdef : isDefinition t (definition t id) = true := by
      rw [isDefinition, hkind]
      rfl
    have hdefinition := definition_eq (t := t) hid.ne_root
    cases h : wrapped? t id with
    | none =>
      rw [h, Option.getD_none] at hdefinition
      rw [hdefinition] at hdef ih
      have hunit : IsUnit t id := ⟨hid.ne_root, hdef, hid.not_passed_over⟩
      exact collectsAt_of_isUnit hunit hdefinition (hid.outer_eq hdef) fun c hc =>
        ih c hc (isVisited_of_isUnit hkinds hunit hc)
    | some d =>
      rw [h, Option.getD_some] at hdefinition
      rw [hdefinition] at hdef ih
      have hunit : IsUnit t d := isUnit_of_wrapped? hid.not_passed_over h hdef
      have hwrapper := not_isUnit (not_isDefinition_of_wrapped? hkinds h)
      exact collectsAt_of_wrapped? hwrapper h hdefinition hunit fun c hc =>
        ih c hc (isVisited_of_isUnit hkinds hunit hc)

/-- The units of a tree with the units around them, as they are collected. -/
theorem nestsOfList_collect :
    nestsOfList [] (collect t source) = unitsAmong t source (t.descendants Tree.root) := by
  have hroot : ¬ IsUnit t Tree.root := fun h => h.ne_root rfl
  have haround : ∀ c ∈ t.children Tree.root, (unitsAbove t source c).reverse = [] := by
    intro c hc
    rw [unitsAbove_child t source hc, if_neg hroot, unitsAbove, t.ancestors_root]
    rfl
  rw [collect, t.descendants_eq, unitsAmong_cons_of_not t source hroot]
  exact nestsOfList_children haround fun c hc => collectsAt_of_isVisited hkinds c
    (isVisited_child not_isPassedOver_root (by simp [wrapped?]) hc)

/-- A collected unit is that of its node, and it has those of the node's ancestors above it. -/
theorem above_of_collect {i : Nat} {e : Entry}
    (he : (listing (collect t source))[i]? = some e) :
    e.unit = unitAt t source e.unit.node ∧
      above (listing (collect t source)) i = (unitsAbove t source e.unit.node).reverse := by
  have hmem := mem_nestsOfList_of_listing he
  rw [nestsOfList_collect hkinds] at hmem
  obtain ⟨d, -, hd⟩ := List.mem_map.mp hmem
  obtain ⟨habove, hunit⟩ := Prod.mk.inj hd
  rw [← hunit, ← habove]
  exact ⟨rfl, rfl⟩

/-- The units in the list are those of the tree, in the order of a walk. -/
theorem map_unit_collect :
    (listing (collect t source)).map (·.unit) = (unitNodes t).map (unitAt t source) := by
  have h := mapIdx_above_listing (collect t source)
  rw [nestsOfList_collect hkinds, unitsAmong] at h
  refine List.ext_getElem? fun i => ?_
  have hi := congrArg (fun l => l[i]?.map (·.2)) h
  simp only [List.getElem?_map, List.getElem?_mapIdx, Option.map_map] at hi
  rw [List.getElem?_map, List.getElem?_map, unitNodes]
  exact hi

end Collect

/-! ### The flat list -/

/-- The last of the units above an entry is that of its parent. -/
theorem getLast?_above {es : List Entry} {i : Nat} {e : Entry} (he : es[i]? = some e)
    (hparent : ∀ p ∈ e.parent, p < i) :
    (above es i).getLast? = (e.parent.bind (es[·]?)).map (·.unit) := by
  rw [above, he, Option.bind_some]
  cases h : e.parent with
  | none => rfl
  | some p =>
    have hpi := hparent p h
    have hp := List.getElem?_eq_getElem (Nat.lt_trans hpi (List.getElem?_eq_some_iff.mp he).1)
    simp only [if_pos hpi, hp, Option.map_some, Option.toList_some, List.getLast?_concat,
      Option.bind_some]

variable (t source) in
/-- The references of the entry at place `i`, as the tree has them. -/
structure RefersTo (es : List Entry) (i : Nat) (e : Entry) : Prop where
  /-- The parent is the unit of the nearest ancestor that is one. -/
  parent : (e.parent.bind (es[·]?)).map (·.unit.node)
    = (t.ancestors e.unit.node).find? (IsUnit t ·)
  parent_lt : ∀ p ∈ e.parent, p < i
  /-- The children are the places of the entries whose parent the entry is. -/
  children : e.children = placesUnder es.zipIdx (some i)
  /-- The owner is the unit of the nearest ancestor that is one and no function. -/
  owner : e.owner = (unitsAbove t source e.unit.node).find? (·.kind != .function)
  /-- The owner is found from parent to parent. -/
  owner_above : e.owner = ownerAmong (above es i)

variable (t source) in
/-- The forest is the nesting of the tree's definitions. -/
structure IsNesting (forest : List UnitTree) : Prop where
  units : (listing forest).map (·.unit) = (unitNodes t).map (unitAt t source)
  nodup : (unitNodes t).Nodup
  entries : ∀ i e, (listing forest)[i]? = some e → RefersTo t source (listing forest) i e
  outermost : places 0 forest = placesUnder (listing forest).zipIdx none
  /-- Each unit is listed once, among the outermost or among the children of one unit. -/
  once : (places 0 forest ++ (listing forest).flatMap (·.children)).Perm
    (List.range (listing forest).length)

/-- Where kinds of nodes do not overlap, what is collected is the nesting of the definitions. -/
theorem isNesting_collect (hkinds : t.profile.KindsDisjoint) :
    IsNesting t source (collect t source) where
  units := map_unit_collect hkinds
  nodup := (t.nodup_descendants Tree.root).filter _
  outermost := places_listing _
  once := places_perm_listing _
  entries i e he := by
    obtain ⟨-, habove⟩ := above_of_collect hkinds he
    have hlt : ∀ p ∈ e.parent, p < i := fun p hp => parent_lt_of_listing he hp
    refine ⟨?_, hlt, children_of_listing he, ?_, owner_of_listing he⟩
    · calc (e.parent.bind ((listing (collect t source))[·]?)).map (·.unit.node)
          = ((above (listing (collect t source)) i).getLast?).map (·.node) := by
            rw [getLast?_above he hlt, Option.map_map]
            rfl
        _ = ((t.ancestors e.unit.node).filter (IsUnit t ·)).head? := by
            rw [habove, List.getLast?_reverse, unitsAbove, List.head?_map, Option.map_map]
            exact congrFun Option.map_id _
        _ = (t.ancestors e.unit.node).find? (IsUnit t ·) := List.head?_filter
    · rw [owner_of_listing he, habove, ownerAmong, List.reverse_reverse]

/-- The units of a syntax tree are its definitions below the root that are not passed over, nested
as they are in the tree. -/
theorem collect_nests (hprofile : t.profile ∈ Language.builtins.map (·.profile)) :
    IsNesting t source (collect t source) :=
  isNesting_collect (Language.Profile.kindsDisjoint_of_mem_builtins hprofile)

/-- A decorated class with a method, and a function in what it is decorated with, which is passed
over. -/
theorem collect_nests_decorated :
    let t : Tree :=
      ⟨"python", .python,
        #[⟨"module", none, 0, 50, 1, 5, none, false⟩,
          ⟨"decorated_definition", none, 0, 50, 1, 5, some 0, false⟩,
          ⟨"decorator", none, 0, 20, 1, 2, some 1, false⟩,
          ⟨"function_definition", none, 1, 20, 1, 2, some 2, false⟩,
          ⟨"class_definition", some "definition", 21, 50, 3, 5, some 1, false⟩,
          ⟨"function_definition", none, 30, 50, 4, 5, some 4, false⟩], by decide, _, rfl⟩
    t.profile ∈ Language.builtins.map (·.profile) ∧ unitNodes t = [4, 5] ∧
      (unitAt t "" 4).startLine = 1 ∧ IsNesting t "" (collect t "") := by
  intro t
  have hprofile : t.profile ∈ Language.builtins.map (·.profile) := by decide
  exact ⟨hprofile, by decide +kernel, by decide +kernel, collect_nests hprofile⟩

end CodeIndex.UnitTree
