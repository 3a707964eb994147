import CodeIndex.Proofs.Syntax.Ancestors
import Mathlib.Data.List.Nodup
/-!
# Descendants

A walk from a node downwards meets the node and everything that has it among its ancestors
(`mem_descendants_iff`), and each of them once (`nodup_descendants`): what is below one child is
nowhere below another (`eq_of_mem_descendants`).
-/

namespace CodeIndex.Syntax.Tree

variable (t : Tree)

/-! ### Ancestors of ancestors -/

theorem lt_of_mem_ancestors {id d : Nat} (h : id ∈ t.ancestors d) : id < d := by
  induction d using ancestors.induct t with
  | case1 d hnone =>
    rw [t.ancestors_of_no_parent hnone] at h
    cases h
  | case2 d p hsome ih =>
    have hlt := t.parent_lt hsome
    rw [t.ancestors_of_parent hsome] at h
    rcases List.mem_cons.mp h with rfl | h
    · exact hlt
    · exact Nat.lt_trans (ih h) hlt

/-- The ancestors of an ancestor are the farther ones of the node. -/
theorem suffix_of_mem_ancestors {id d : Nat} (h : id ∈ t.ancestors d) :
    id :: t.ancestors id <:+ t.ancestors d := by
  induction d using ancestors.induct t with
  | case1 d hnone =>
    rw [t.ancestors_of_no_parent hnone] at h
    cases h
  | case2 d p hsome ih =>
    rw [t.ancestors_of_parent hsome] at h ⊢
    rcases List.mem_cons.mp h with rfl | h
    · exact List.suffix_refl _
    · exact (ih h).trans (List.suffix_cons _ _)

/-! ### What a walk meets -/

theorem self_mem_descendants (id : Nat) : id ∈ t.descendants id := by
  rw [descendants_eq]
  exact List.mem_cons_self

/-- A walk goes on to the children. -/
theorem mem_descendants_of_mem_children {id p d : Nat} (hp : p ∈ t.descendants id)
    (hd : d ∈ t.children p) : d ∈ t.descendants id := by
  induction id using descendants.induct t with
  | case1 id ih =>
    rw [descendants_eq] at hp ⊢
    refine List.mem_cons_of_mem _ (List.mem_flatMap.mpr ?_)
    rcases List.mem_cons.mp hp with rfl | hp
    · exact ⟨d, hd, t.self_mem_descendants d⟩
    · obtain ⟨c, hc, hp⟩ := List.mem_flatMap.mp hp
      exact ⟨c, hc, ih c hc hp⟩

theorem mem_descendants_of_mem_ancestors {id d : Nat} (h : id ∈ t.ancestors d) :
    d ∈ t.descendants id := by
  induction d using ancestors.induct t with
  | case1 d hnone =>
    rw [t.ancestors_of_no_parent hnone] at h
    cases h
  | case2 d p hsome ih =>
    rw [t.ancestors_of_parent hsome] at h
    refine t.mem_descendants_of_mem_children ?_ (mem_children.mpr hsome)
    rcases List.mem_cons.mp h with rfl | h
    · exact t.self_mem_descendants id
    · exact ih h

/-- A walk meets the node and the nodes that have it among their ancestors. -/
theorem mem_descendants_iff {id d : Nat} :
    d ∈ t.descendants id ↔ id ∈ d :: t.ancestors d := by
  rw [List.mem_cons]
  constructor
  · intro h
    rcases t.ancestors_of_mem_descendants id d h with rfl | ⟨inner, hinner⟩
    · exact Or.inl rfl
    · exact Or.inr (hinner ▸ List.mem_append_right _ List.mem_cons_self)
  · rintro (rfl | h)
    · exact t.self_mem_descendants id
    · exact t.mem_descendants_of_mem_ancestors h

theorem suffix_of_mem_descendants {id d : Nat} (h : d ∈ t.descendants id) :
    id :: t.ancestors id <:+ d :: t.ancestors d := by
  rcases List.mem_cons.mp (t.mem_descendants_iff.mp h) with rfl | h
  · exact List.suffix_refl _
  · exact (t.suffix_of_mem_ancestors h).trans (List.suffix_cons _ _)

/-- What is below one child of a node is below no other. -/
theorem eq_of_mem_descendants {id c c' d : Nat} (hc : c ∈ t.children id) (hc' : c' ∈ t.children id)
    (hd : d ∈ t.descendants c) (hd' : d ∈ t.descendants c') : c = c' := by
  -- Either child and what is above it is the same part of the ancestors of `d`.
  have hsuffix := t.suffix_of_mem_descendants hd
  have hsuffix' := t.suffix_of_mem_descendants hd'
  rw [t.ancestors_of_mem_children hc] at hsuffix
  rw [t.ancestors_of_mem_children hc'] at hsuffix'
  have hle := List.suffix_of_suffix_length_le hsuffix hsuffix' (Nat.le_refl _)
  exact (List.cons.inj (hle.eq_of_length rfl)).1

/-! ### Each node once -/

theorem nodup_children (id : Nat) : (t.children id).Nodup := by
  rw [children, t.childIds_eq, childTable, Array.getD_eq_getD_getElem?, Array.getElem?_map]
  cases (Array.range t.nodes.size)[id]? with
  | none => exact List.nodup_nil
  | some id => exact List.nodup_range.filter _

theorem nodup_descendants (id : Nat) : (t.descendants id).Nodup := by
  induction id using descendants.induct t with
  | case1 id ih =>
    rw [descendants_eq, List.nodup_cons, List.nodup_flatMap]
    refine ⟨fun hmem => ?_, ih, ?_⟩
    · obtain ⟨c, hc, hmem⟩ := List.mem_flatMap.mp hmem
      have hlt := lt_of_mem_children hc
      rcases List.mem_cons.mp (t.mem_descendants_iff.mp hmem) with rfl | hmem
      · exact Nat.lt_irrefl _ hlt
      · exact Nat.lt_asymm hlt (t.lt_of_mem_ancestors hmem)
    · refine (t.nodup_children id).imp_of_mem fun {c c'} hc hc' hne d hd hd' => ?_
      exact hne (t.eq_of_mem_descendants hc hc' hd hd')

end CodeIndex.Syntax.Tree
