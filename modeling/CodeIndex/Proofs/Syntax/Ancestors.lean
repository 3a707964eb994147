import CodeIndex.Syntax.Tree
/-!
# Ancestors

The ancestors of a node, the nearest first. A walk from a node downwards meets the node and the
nodes that have it among their ancestors (`ancestors_of_mem_descendants`).
-/

namespace CodeIndex.Syntax.Tree

/-- The nodes around a node, the nearest first. -/
def ancestors (t : Tree) (id : Nat) : List Nat :=
  match _h : t.parent? id with
  | none => []
  | some p => p :: t.ancestors p
termination_by id
decreasing_by exact t.parent_lt _h

variable (t : Tree)

theorem ancestors_of_parent {id p : Nat} (h : t.parent? id = some p) :
    t.ancestors id = p :: t.ancestors p := by
  rw [ancestors]
  split
  · rename_i hnone
    rw [hnone] at h
    cases h
  · rename_i q hsome
    rw [hsome] at h
    obtain rfl := Option.some.inj h
    rfl

theorem ancestors_of_no_parent {id : Nat} (h : t.parent? id = none) : t.ancestors id = [] := by
  rw [ancestors]
  split
  · rfl
  · rename_i q hsome
    rw [hsome] at h
    cases h

/-- Nothing is around the root. -/
theorem ancestors_root : t.ancestors root = [] := by
  refine t.ancestors_of_no_parent ?_
  cases h : t.parent? root with
  | none => rfl
  | some p => exact absurd (t.parent_lt h) (Nat.not_lt_zero p)

theorem ancestors_of_mem_children {id c : Nat} (h : c ∈ t.children id) :
    t.ancestors c = id :: t.ancestors id :=
  t.ancestors_of_parent (mem_children.mp h)

/-! ### Walking -/

/-- A walk goes to the node and then to what is below each child. -/
theorem descendants_eq (id : Nat) :
    t.descendants id = id :: (t.children id).flatMap t.descendants := by
  rw [descendants]
  simp

theorem ancestors_of_mem_descendants (id : Nat) :
    ∀ d ∈ t.descendants id, d = id ∨ ∃ inner, t.ancestors d = inner ++ id :: t.ancestors id := by
  induction id using descendants.induct t with
  | case1 id ih =>
    intro d hd
    rw [descendants_eq] at hd
    rcases List.mem_cons.mp hd with rfl | hd
    · exact Or.inl rfl
    · obtain ⟨c, hc, hd⟩ := List.mem_flatMap.mp hd
      have hchild := t.ancestors_of_mem_children hc
      rcases ih c hc d hd with rfl | ⟨inner, hinner⟩
      · exact Or.inr ⟨[], hchild⟩
      · refine Or.inr ⟨inner ++ [c], ?_⟩
        rw [hinner, hchild, List.append_assoc]
        rfl

end CodeIndex.Syntax.Tree
