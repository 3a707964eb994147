import CodeIndex.Unit.Basic
/-!
# Units in their places

`occurrences` lists the units of a forest, each with the units inside it and with those around it.
It is the view of a forest in which a statement about a unit can speak of both.

A walk into a forest keeps of the units around it only the nearest that is no function.
`ownerAmong_concat` says that what it hands down is found in the places, too.
-/

namespace CodeIndex.UnitTree

/-- A unit with the units inside it, in its place. -/
structure Occurrence where
  /-- The units around it, the outermost first. -/
  around : List CodeUnit
  tree : UnitTree

mutual

/-- The units of a tree that stands inside `around`. -/
def occurrences (around : List CodeUnit) : UnitTree → List Occurrence
  | node unit nested =>
    ⟨around, node unit nested⟩ :: occurrencesOfList (around ++ [unit]) nested

/-- The units of several trees that stand inside `around`. -/
def occurrencesOfList (around : List CodeUnit) : List UnitTree → List Occurrence
  | [] => []
  | tree :: trees => occurrences around tree ++ occurrencesOfList around trees

end

/-- The units around what stands right inside a unit; there are none outside every unit. -/
def unitsAround : Option Occurrence → List CodeUnit
  | none => []
  | some o => o.around ++ [o.tree.unit]

/-- The nearest of some units that is no function. -/
def ownerAmong (around : List CodeUnit) : Option CodeUnit :=
  around.reverse.find? (·.kind != .function)

theorem ownerAmong_concat (around : List CodeUnit) (unit : CodeUnit) :
    ownerAmong (around ++ [unit]) = ownerInside unit (ownerAmong around) := by
  rw [ownerAmong, List.reverse_append, List.reverse_singleton, List.singleton_append,
    List.find?_cons, ownerInside]
  by_cases h : unit.kind = .function
  · rw [if_pos h, h]
    rfl
  · have hne : (unit.kind != .function) = true := by simpa using h
    rw [if_neg h, hne]

/-! ### Members of the list -/

theorem mem_occurrences_self (around : List CodeUnit) (tree : UnitTree) :
    ⟨around, tree⟩ ∈ occurrences around tree := by
  cases tree with
  | node unit nested =>
    rw [occurrences]
    exact List.mem_cons_self

theorem mem_occurrencesOfList {around : List CodeUnit} {o : Occurrence} {trees : List UnitTree} :
    o ∈ occurrencesOfList around trees ↔ ∃ tree ∈ trees, o ∈ occurrences around tree := by
  induction trees with
  | nil => simp [occurrencesOfList]
  | cons tree trees ih => simp [occurrencesOfList, ih]

mutual

/-- What is around a forest is around all its units. -/
theorem subset_around (around : List CodeUnit) :
    ∀ tree : UnitTree, ∀ o ∈ occurrences around tree, around ⊆ o.around
  | .node unit nested => by
    intro o ho
    rw [occurrences] at ho
    rcases List.mem_cons.mp ho with rfl | ho
    · exact List.Subset.refl _
    · have hinside := subset_aroundOfList (around ++ [unit]) nested o ho
      exact List.Subset.trans (List.subset_append_left _ _) hinside

theorem subset_aroundOfList (around : List CodeUnit) :
    ∀ trees : List UnitTree, ∀ o ∈ occurrencesOfList around trees, around ⊆ o.around
  | [] => nofun
  | tree :: trees => by
    intro o ho
    rw [occurrencesOfList] at ho
    rcases List.mem_append.mp ho with ho | ho
    · exact subset_around around tree o ho
    · exact subset_aroundOfList around trees o ho

end

mutual

/-- What stands right inside a unit of a forest is a unit of the forest. -/
theorem mem_occurrences_of_mem_nested (around : List CodeUnit) :
    ∀ tree : UnitTree, ∀ o ∈ occurrences around tree, ∀ inner ∈ o.tree.nested,
      ⟨o.around ++ [o.tree.unit], inner⟩ ∈ occurrences around tree
  | .node unit nested => by
    intro o ho inner hinner
    rw [occurrences] at ho ⊢
    rcases List.mem_cons.mp ho with rfl | ho
    · refine List.mem_cons_of_mem _ (mem_occurrencesOfList.mpr ⟨inner, hinner, ?_⟩)
      exact mem_occurrences_self _ inner
    · exact List.mem_cons_of_mem _
        (mem_occurrencesOfList_of_mem_nested (around ++ [unit]) nested o ho inner hinner)

theorem mem_occurrencesOfList_of_mem_nested (around : List CodeUnit) :
    ∀ trees : List UnitTree, ∀ o ∈ occurrencesOfList around trees, ∀ inner ∈ o.tree.nested,
      ⟨o.around ++ [o.tree.unit], inner⟩ ∈ occurrencesOfList around trees
  | [] => nofun
  | tree :: trees => by
    intro o ho inner hinner
    rw [occurrencesOfList] at ho ⊢
    rcases List.mem_append.mp ho with ho | ho
    · exact List.mem_append_left _ (mem_occurrences_of_mem_nested around tree o ho inner hinner)
    · exact List.mem_append_right _
        (mem_occurrencesOfList_of_mem_nested around trees o ho inner hinner)

end

end CodeIndex.UnitTree
