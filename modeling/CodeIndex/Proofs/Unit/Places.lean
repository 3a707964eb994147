import CodeIndex.Proofs.Unit.Around
import CodeIndex.Proofs.Unit.Occurrences
import Mathlib.Data.List.Basic
/-!
# Places in the flat list

The flat list of a forest refers from unit to unit by places. The references agree with each other:
a parent comes before its children (`parent_lt_of_listing`), the children of a unit are the places
that refer to it as their parent, in order (`children_of_listing`), those that refer to no parent
are the outermost units (`places_listing`), and so every place is listed exactly once, among the
children of one unit or among the outermost (`places_perm_listing`). The owner of a unit is the
first unit that is no function on the way up from parent to parent (`owner_of_listing`).

All of it holds of any forest. Each fact is shown for the part of the list that comes from one tree,
or from several; references out of such a part lead to its parent, which stands before it.
-/

namespace CodeIndex.UnitTree

/-- The places of the entries that refer to `parent`, in order. -/
def placesUnder (placed : List (Entry × Nat)) (parent : Option Nat) : List Nat :=
  (placed.filter fun x => x.1.parent == parent).map (·.2)

theorem placesUnder_append (placed placed' : List (Entry × Nat)) (parent : Option Nat) :
    placesUnder (placed ++ placed') parent
      = placesUnder placed parent ++ placesUnder placed' parent := by
  rw [placesUnder, List.filter_append, List.map_append]
  rfl

theorem placesUnder_cons_self (e : Entry) (i : Nat) (placed : List (Entry × Nat)) :
    placesUnder ((e, i) :: placed) e.parent = i :: placesUnder placed e.parent := by
  rw [placesUnder, List.filter_cons_of_pos (by simp), List.map_cons]
  rfl

theorem placesUnder_cons_of_ne {e : Entry} {i : Nat} {placed : List (Entry × Nat)}
    {parent : Option Nat} (h : e.parent ≠ parent) :
    placesUnder ((e, i) :: placed) parent = placesUnder placed parent := by
  rw [placesUnder, List.filter_cons_of_neg (by simpa using h)]
  rfl

theorem placesUnder_eq_nil {placed : List (Entry × Nat)} {parent : Option Nat}
    (h : ∀ x ∈ placed, x.1.parent ≠ parent) : placesUnder placed parent = [] := by
  rw [placesUnder, List.filter_eq_nil_iff.mpr fun x hx => by simpa using h x hx, List.map_nil]

/-! ### The entries of a part of the list -/

/-- The entries of a tree with their places. -/
def placed (next : Nat) (parent : Option Nat) (owner : Option CodeUnit) (tree : UnitTree) :
    List (Entry × Nat) :=
  (entries next parent owner tree).zipIdx next

/-- The entries of several trees with their places. -/
def placedOfList (next : Nat) (parent : Option Nat) (owner : Option CodeUnit)
    (trees : List UnitTree) : List (Entry × Nat) :=
  (entriesOfList next parent owner trees).zipIdx next

section Parts

variable (next : Nat) (parent : Option Nat) (owner : Option CodeUnit)

theorem placed_node (unit : CodeUnit) (nested : List UnitTree) :
    placed next parent owner (.node unit nested) =
      (⟨unit, parent, places (next + 1) nested, owner⟩, next) ::
        placedOfList (next + 1) (some next) (ownerInside unit owner) nested := by
  rw [placed, entries, List.zipIdx_cons]
  rfl

theorem placedOfList_cons (tree : UnitTree) (trees : List UnitTree) :
    placedOfList next parent owner (tree :: trees) =
      placed next parent owner tree ++ placedOfList (next + tree.size) parent owner trees := by
  rw [placedOfList, entriesOfList, List.zipIdx_append, length_entries]
  rfl

theorem bounds_of_mem_placed {tree : UnitTree} {x : Entry × Nat}
    (h : x ∈ placed next parent owner tree) : next ≤ x.2 ∧ x.2 < next + tree.size := by
  rw [← length_entries next parent owner tree]
  exact ⟨List.le_snd_of_mem_zipIdx h, List.snd_lt_add_of_mem_zipIdx h⟩

theorem le_of_mem_placedOfList {trees : List UnitTree} {x : Entry × Nat}
    (h : x ∈ placedOfList next parent owner trees) : next ≤ x.2 :=
  List.le_snd_of_mem_zipIdx h

end Parts

/-! ### Parents -/

mutual

/-- A reference leads to the parent of the whole part, or back to a place in it. -/
theorem parent_of_mem_placed (next : Nat) (parent : Option Nat) (owner : Option CodeUnit) :
    ∀ tree : UnitTree, ∀ x ∈ placed next parent owner tree,
      x.1.parent = parent ∨ ∃ p, x.1.parent = some p ∧ next ≤ p ∧ p < x.2
  | .node unit nested => by
    intro x hx
    rw [placed_node] at hx
    rcases List.mem_cons.mp hx with rfl | hx
    · exact Or.inl rfl
    · have hle := le_of_mem_placedOfList _ _ _ hx
      rcases parent_of_mem_placedOfList (next + 1) (some next) _ nested x hx with h | ⟨p, h, h1, h2⟩
      · exact Or.inr ⟨next, h, Nat.le_refl _, hle⟩
      · exact Or.inr ⟨p, h, Nat.le_of_succ_le h1, h2⟩

theorem parent_of_mem_placedOfList (next : Nat) (parent : Option Nat) (owner : Option CodeUnit) :
    ∀ trees : List UnitTree, ∀ x ∈ placedOfList next parent owner trees,
      x.1.parent = parent ∨ ∃ p, x.1.parent = some p ∧ next ≤ p ∧ p < x.2
  | [] => nofun
  | tree :: trees => by
    intro x hx
    rw [placedOfList_cons] at hx
    rcases List.mem_append.mp hx with hx | hx
    · exact parent_of_mem_placed next parent owner tree x hx
    · refine (parent_of_mem_placedOfList _ parent owner trees x hx).imp_right ?_
      rintro ⟨p, h, h1, h2⟩
      exact ⟨p, h, by omega, h2⟩

end

/-- No entry of several trees refers to a place before them other than their parent's. -/
theorem parent_ne_of_lt {next : Nat} {parent other : Option Nat} (owner : Option CodeUnit)
    (trees : List UnitTree) (hother : ∀ p ∈ other, p < next) (hne : parent ≠ other) :
    ∀ x ∈ placedOfList next parent owner trees, x.1.parent ≠ other := by
  intro x hx heq
  rcases parent_of_mem_placedOfList next parent owner trees x hx with h | ⟨p, h, hle, -⟩
  · exact hne (h.symm.trans heq)
  · exact absurd (hother p (heq ▸ h)) (Nat.not_lt.mpr hle)

/-! ### Children -/

mutual

/-- Of a tree only the outermost unit refers to its parent. -/
theorem placesUnder_placed (next : Nat) (parent : Option Nat) (owner : Option CodeUnit)
    (hparent : ∀ p ∈ parent, p < next) :
    ∀ tree : UnitTree, placesUnder (placed next parent owner tree) parent = [next]
  | .node unit nested => by
    have hother : ∀ p ∈ parent, p < next + 1 := fun p hp => Nat.lt_succ_of_lt (hparent p hp)
    have hne : some next ≠ parent := fun h => Nat.lt_irrefl _ (hparent next (h ▸ rfl))
    have hinside := parent_ne_of_lt (ownerInside unit owner) nested hother hne
    rw [placed_node, placesUnder_cons_self, placesUnder_eq_nil hinside]

theorem placesUnder_placedOfList (next : Nat) (parent : Option Nat) (owner : Option CodeUnit)
    (hparent : ∀ p ∈ parent, p < next) : ∀ trees : List UnitTree,
      placesUnder (placedOfList next parent owner trees) parent = places next trees
  | [] => rfl
  | tree :: trees => by
    have hrest := placesUnder_placedOfList (next + tree.size) parent owner
      (fun p hp => Nat.lt_add_right _ (hparent p hp)) trees
    rw [placedOfList_cons, placesUnder_append, placesUnder_placed next parent owner hparent, hrest,
      places]
    rfl

end

mutual

/-- Of a tree, those that refer to a unit are its children. -/
theorem children_of_mem_placed (next : Nat) (parent : Option Nat) (owner : Option CodeUnit)
    (hparent : ∀ p ∈ parent, p < next) : ∀ tree : UnitTree, ∀ x ∈ placed next parent owner tree,
      x.1.children = placesUnder (placed next parent owner tree) (some x.2)
  | .node unit nested => by
    intro x hx
    have hfront : ∀ i, next ≤ i → parent ≠ some i := by
      rintro i hi rfl
      exact absurd (hparent i rfl) (Nat.not_lt.mpr hi)
    have hnext : ∀ p ∈ some next, p < next + 1 := by
      rintro p ⟨⟩
      exact Nat.lt_succ_self _
    rw [placed_node] at hx ⊢
    rcases List.mem_cons.mp hx with rfl | hx
    · rw [placesUnder_cons_of_ne (hfront next (Nat.le_refl _)),
        placesUnder_placedOfList (next + 1) (some next) _ hnext]
    · have hle := le_of_mem_placedOfList _ _ _ hx
      rw [placesUnder_cons_of_ne (hfront x.2 (Nat.le_of_succ_le hle))]
      exact children_of_mem_placedOfList (next + 1) (some next) _ hnext nested x hx

theorem children_of_mem_placedOfList (next : Nat) (parent : Option Nat) (owner : Option CodeUnit)
    (hparent : ∀ p ∈ parent, p < next) :
    ∀ trees : List UnitTree, ∀ x ∈ placedOfList next parent owner trees,
      x.1.children = placesUnder (placedOfList next parent owner trees) (some x.2)
  | [] => nofun
  | tree :: trees => by
    intro x hx
    have hfront : ∀ i, next ≤ i → parent ≠ some i := by
      rintro i hi rfl
      exact absurd (hparent i rfl) (Nat.not_lt.mpr hi)
    rw [placedOfList_cons] at hx ⊢
    rw [placesUnder_append]
    rcases List.mem_append.mp hx with hx | hx
    · -- What comes behind the tree refers to the parent or to places behind the tree.
      have hbounds := bounds_of_mem_placed next parent owner hx
      have hother : ∀ p ∈ some x.2, p < next + size tree := by
        rintro p ⟨⟩
        exact hbounds.2
      have hbehind := parent_ne_of_lt owner trees hother (hfront x.2 hbounds.1)
      rw [placesUnder_eq_nil hbehind, List.append_nil]
      exact children_of_mem_placed next parent owner hparent tree x hx
    · -- What is in the tree refers to the parent or to places in the tree.
      have hle := le_of_mem_placedOfList _ _ _ hx
      have hinside : ∀ y ∈ placed next parent owner tree, y.1.parent ≠ some x.2 := by
        intro y hy heq
        rcases parent_of_mem_placed next parent owner tree y hy with h | ⟨p, h, -, hlt⟩
        · exact hfront x.2 (by omega) (h.symm.trans heq)
        · have hbounds := bounds_of_mem_placed next parent owner hy
          obtain rfl := Option.some.inj (h.symm.trans heq)
          omega
      rw [placesUnder_eq_nil hinside, List.nil_append]
      exact children_of_mem_placedOfList _ parent owner
        (fun p hp => Nat.lt_add_right _ (hparent p hp)) trees x hx

end

mutual

/-- The outermost place of a tree and the children of its units are the places of the tree. -/
theorem places_perm_entries (next : Nat) (parent : Option Nat) (owner : Option CodeUnit) :
    ∀ tree : UnitTree, (next :: (entries next parent owner tree).flatMap (·.children)).Perm
      (List.range' next tree.size)
  | .node unit nested => by
    rw [entries, List.flatMap_cons, size, Nat.add_comm 1 (sizeOfList nested), List.range'_succ]
    exact (places_perm_entriesOfList (next + 1) (some next) _ nested).cons next

theorem places_perm_entriesOfList (next : Nat) (parent : Option Nat) (owner : Option CodeUnit) :
    ∀ trees : List UnitTree,
      (places next trees ++ (entriesOfList next parent owner trees).flatMap (·.children)).Perm
        (List.range' next (sizeOfList trees))
  | [] => List.Perm.refl _
  | tree :: trees => by
    have hfirst := places_perm_entries next parent owner tree
    have hrest := places_perm_entriesOfList (next + tree.size) parent owner trees
    rw [places, entriesOfList, List.flatMap_append, sizeOfList, ← List.range'_append_1,
      List.cons_append]
    exact ((List.perm_append_comm_assoc _ _ _).cons next).trans (hfirst.append hrest)

end

/-! ### Owners -/

mutual

/-- The owners in the list are those among the units that the forest nests a unit in. -/
theorem map_owner_entries (next : Nat) (parent : Option Nat) (around : List CodeUnit) :
    ∀ tree : UnitTree, (entries next parent (ownerAmong around) tree).map (·.owner)
      = (nests around tree).map (ownerAmong ·.1)
  | .node unit nested => by
    rw [entries, nests, List.map_cons, List.map_cons, ← ownerAmong_concat,
      map_owner_entriesOfList (next + 1) (some next) (around ++ [unit]) nested]

theorem map_owner_entriesOfList (next : Nat) (parent : Option Nat) (around : List CodeUnit) :
    ∀ trees : List UnitTree,
      (entriesOfList next parent (ownerAmong around) trees).map (·.owner)
        = (nestsOfList around trees).map (ownerAmong ·.1)
  | [] => rfl
  | tree :: trees => by
    rw [entriesOfList, nestsOfList, List.map_append, List.map_append,
      map_owner_entries next parent around tree,
      map_owner_entriesOfList (next + tree.size) parent around trees]

end

/-! ### The list of a forest -/

section Listing

variable (forest : List UnitTree)

theorem length_listing : (listing forest).length = sizeOfList forest :=
  length_entriesOfList 0 none none forest

/-- The outermost units are those that refer to no parent. -/
theorem places_listing : places 0 forest = placesUnder (listing forest).zipIdx none :=
  (placesUnder_placedOfList 0 none none nofun forest).symm

/-- Every place is listed once, among the outermost or among the children of a unit. -/
theorem places_perm_listing :
    (places 0 forest ++ (listing forest).flatMap (·.children)).Perm
      (List.range (listing forest).length) := by
  rw [length_listing, List.range_eq_range']
  exact places_perm_entriesOfList 0 none none forest

variable {forest} {i : Nat} {e : Entry} (h : (listing forest)[i]? = some e)
include h

theorem mem_placedOfList_of_listing : (e, i) ∈ placedOfList 0 none none forest :=
  List.mk_mem_zipIdx_iff_getElem?.mpr h

/-- A parent comes before its children. -/
theorem parent_lt_of_listing {p : Nat} (hparent : e.parent = some p) : p < i := by
  rcases parent_of_mem_placedOfList 0 none none forest _ (mem_placedOfList_of_listing h)
    with hnone | ⟨q, hq, -, hlt⟩
  · rw [hparent] at hnone
    cases hnone
  · obtain rfl := Option.some.inj (hparent.symm.trans hq)
    exact hlt

/-- The children of a unit are those that refer to it. -/
theorem children_of_listing : e.children = placesUnder (listing forest).zipIdx (some i) :=
  children_of_mem_placedOfList 0 none none nofun forest _ (mem_placedOfList_of_listing h)

/-- The owner of a unit is found on the way up. -/
theorem owner_of_listing : e.owner = ownerAmong (above (listing forest) i) := by
  have howners : (listing forest).map (·.owner) = (nestsOfList [] forest).map (ownerAmong ·.1) :=
    map_owner_entriesOfList 0 none [] forest
  have hi := congrArg (·[i]?) howners
  rw [← mapIdx_above_listing] at hi
  simp only [List.getElem?_map, List.getElem?_mapIdx, h, Option.map_some] at hi
  exact Option.some.inj hi

end Listing

end CodeIndex.UnitTree
