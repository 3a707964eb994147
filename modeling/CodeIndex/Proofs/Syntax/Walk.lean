import CodeIndex.Proofs.Syntax.Descendants
import CodeIndex.Syntax.Walk
import Mathlib.Data.List.Flatten
/-!
# A walk with a stack is in pre-order

A walk comes to what is at and below the nodes on its stack, from the top down (`nodes_eq`). So the
walk that begins with a node ends after as many steps as there are nodes at and below it, and comes
to them in the order of the recursion (`walk_in_preorder`): what is below a node follows it without
a gap (`isInfix_descendants`), and what is below a child stands in front of what is below a later
one (`descendants_append_sublist`).

The sibling in front of a node is the one right before it among the children of its parent
(`prevSibling?_eq_some_iff`).
-/

namespace CodeIndex.Syntax

variable {t : Tree} {w w' : Walk} {id : Nat}

namespace Walk

/-! ### Steps one after the other -/

/-- The walk `w` comes to the nodes `ids`, one with each step, and is then at `w'`. -/
inductive Yields (t : Tree) : Walk → List Nat → Walk → Prop where
  | rest (w : Walk) : Yields t w [] w
  | step {w w' w'' : Walk} {id : Nat} {ids : List Nat} :
      w.next? t = some (id, w') → Yields t w' ids w'' → Yields t w (id :: ids) w''

theorem nodes_of_next?_eq_none (h : w.next? t = none) : w.nodes t = [] := by
  rw [nodes]
  split
  · rfl
  · rename_i hsome
    rw [h] at hsome
    cases hsome

theorem nodes_of_next? (h : w.next? t = some (id, w')) : w.nodes t = id :: w'.nodes t := by
  rw [nodes]
  split
  · rename_i hnone
    rw [h] at hnone
    cases hnone
  · rename_i hsome
    rw [h] at hsome
    obtain ⟨rfl, rfl⟩ := Prod.mk.inj (Option.some.inj hsome)
    rfl

/-- A walk goes on until its stack is empty. -/
theorem yields_nodes (t : Tree) (w : Walk) : Yields t w (w.nodes t) ⟨#[]⟩ := by
  induction w using nodes.induct t with
  | case1 w hnone =>
    obtain ⟨stack⟩ := w
    obtain rfl := next?_eq_none_iff.mp hnone
    rw [nodes_of_next?_eq_none hnone]
    exact .rest _
  | case2 w id w' hnext ih =>
    rw [nodes_of_next? hnext]
    exact .step hnext ih

/-! ### The stack holds what has still to come -/

/-- From the top of the stack down, a walk comes to what is at and below each node. -/
theorem nodes_eq (t : Tree) (w : Walk) :
    w.nodes t = w.stack.toList.reverse.flatMap t.descendants := by
  induction w using nodes.induct t with
  | case1 w hnone =>
    rw [nodes_of_next?_eq_none hnone, next?_eq_none_iff.mp hnone]
    rfl
  | case2 w id w' hnext ih =>
    obtain ⟨below, hstack, hstack'⟩ := next?_eq_some_iff.mp hnext
    -- The children are on the stack in reverse, so from the top down they stand in order.
    rw [nodes_of_next? hnext, ih, hstack, hstack', Array.toList_appendList, Array.toList_push,
      List.reverse_append, List.reverse_append, List.reverse_reverse, List.flatMap_append,
      List.reverse_singleton, List.singleton_append, List.flatMap_cons, Tree.descendants_eq,
      List.cons_append]

theorem nodes_start (t : Tree) (id : Nat) : (start id).nodes t = t.descendants id := by
  rw [nodes_eq, start]
  simp

end Walk

namespace Tree

/-! ### The order of the recursion -/

/-- What is at and below a node comes without a gap. -/
theorem isInfix_descendants {a : Nat} (h : a ∈ t.descendants id) :
    t.descendants a <:+: t.descendants id := by
  induction id using descendants.induct t with
  | case1 id ih =>
    rw [descendants_eq] at h
    rcases List.mem_cons.mp h with rfl | h
    · exact List.infix_refl _
    · obtain ⟨c, hc, ha⟩ := List.mem_flatMap.mp h
      obtain ⟨front, back, hchildren⟩ := List.append_of_mem hc
      -- What is below the child stands between what is below the others.
      have hchild : t.descendants c <:+: t.descendants id := by
        rw [t.descendants_eq id, hchildren, List.flatMap_append, List.flatMap_cons]
        exact ⟨id :: front.flatMap t.descendants, back.flatMap t.descendants, by simp⟩
      exact (ih c hc ha).trans hchild

/-- A node comes before what has it among its ancestors. -/
theorem ancestor_sublist {a d : Nat} (ha : a ∈ t.descendants id) (hd : a ∈ t.ancestors d) :
    [a, d].Sublist (t.descendants id) := by
  have hbelow : d ∈ t.descendants a := t.mem_descendants_of_mem_ancestors hd
  rw [descendants_eq] at hbelow
  have hne : d ≠ a := (Nat.ne_of_lt (t.lt_of_mem_ancestors hd)).symm
  have hrest := (List.mem_cons.mp hbelow).resolve_left hne
  refine List.Sublist.trans ?_ (isInfix_descendants ha).sublist
  rw [t.descendants_eq a]
  exact (List.singleton_sublist.mpr hrest).cons_cons a

/-- What is at and below a child comes before what is at and below a later one. -/
theorem descendants_append_sublist {p c c' : Nat} (hp : p ∈ t.descendants id)
    (hc : [c, c'].Sublist (t.children p)) :
    (t.descendants c ++ t.descendants c').Sublist (t.descendants id) := by
  have hchildren := hc.flatMap t.descendants
  refine List.Sublist.trans ?_ (isInfix_descendants hp).sublist
  rw [t.descendants_eq p]
  simpa using hchildren.cons p

/-! ### Siblings -/

/-- In a list without repetitions an element is right before another one in at most one place. -/
theorem before?_eq_some_iff {l : List Nat} {a b : Nat} (h : l.Nodup) :
    before? b l = some a ↔ ∃ front back, l = front ++ a :: b :: back := by
  induction l using before?.induct b with
  | case1 x rest =>
    rw [before?, if_pos rfl, Option.some.injEq]
    constructor
    · rintro rfl
      exact ⟨[], rest, rfl⟩
    · rintro ⟨front, back, hl⟩
      cases front with
      | nil => exact List.head_eq_of_cons_eq hl
      | cons y front =>
        -- Further back `b` would be there once more.
        have htail : b :: rest = front ++ [a] ++ b :: back := by
          rw [← List.append_cons]
          exact List.tail_eq_of_cons_eq hl
        have hrest : rest = (front ++ [a]).tail ++ b :: back := by
          rw [← List.tail_append_of_ne_nil (by simp), ← htail, List.tail_cons]
        have hnot := (List.nodup_cons.mp (List.nodup_cons.mp h).2).1
        exact absurd (hrest ▸ List.mem_append_right _ List.mem_cons_self) hnot
  | case2 x y rest hne ih =>
    rw [before?, if_neg hne, ih (List.nodup_cons.mp h).2]
    constructor
    · rintro ⟨front, back, hrest⟩
      exact ⟨x :: front, back, by rw [hrest, List.cons_append]⟩
    · rintro ⟨front, back, hl⟩
      cases front with
      | nil =>
        obtain ⟨-, hl⟩ := List.cons.inj hl
        exact absurd (List.head_eq_of_cons_eq hl) hne
      | cons z front => exact ⟨front, back, List.tail_eq_of_cons_eq hl⟩
  | case3 l hshort =>
    have hnone : before? b l = none := by
      rw [before?.eq_def]
      split
      · exact (hshort _ _ _ rfl).elim
      · rfl
    rw [hnone]
    refine iff_of_false nofun ?_
    rintro ⟨front, back, rfl⟩
    cases front with
    | nil => exact hshort _ _ _ rfl
    | cons x front => cases front <;> exact hshort _ _ _ rfl

theorem prevSibling?_eq_some_iff {c p : Nat} :
    t.prevSibling? c = some p ↔
      ∃ parent, t.parent? c = some parent ∧
        ∃ front back, t.children parent = front ++ p :: c :: back := by
  rw [prevSibling?, Option.bind_eq_some_iff]
  exact exists_congr fun parent => and_congr_right fun _ =>
    before?_eq_some_iff (t.nodup_children parent)

end Tree

/-- **A walk with a stack is the recursive pre-order.** After finitely many steps nothing is left,
and the walk has come to the node and to what has it among its ancestors, to each once: to every
node before what is below it, and to what is at and below a child before what is at and below a
later one. The sibling in front of a node stands right before it among the children of their
parent. -/
theorem walk_in_preorder (t : Tree) (id : Nat) :
    (Walk.start id).nodes t = t.descendants id ∧
    (∃ done, Walk.Yields t (.start id) (t.descendants id) done ∧ done.next? t = none) ∧
    t.descendants id = id :: (t.children id).flatMap t.descendants ∧
    (∀ d, d ∈ t.descendants id ↔ d = id ∨ id ∈ t.ancestors d) ∧
    (t.descendants id).Nodup ∧
    (∀ a ∈ t.descendants id, ∀ d, a ∈ t.ancestors d → [a, d].Sublist (t.descendants id)) ∧
    (∀ p ∈ t.descendants id, ∀ c c', [c, c'].Sublist (t.children p) →
      (t.descendants c ++ t.descendants c').Sublist (t.descendants id)) ∧
    ∀ c p, t.prevSibling? c = some p ↔
      ∃ parent, t.parent? c = some parent ∧
        ∃ front back, t.children parent = front ++ p :: c :: back := by
  have hnodes := Walk.nodes_start t id
  refine ⟨hnodes, ⟨⟨#[]⟩, ?_, rfl⟩, t.descendants_eq id, fun d => ?_, t.nodup_descendants id,
    ?_, ?_, ?_⟩
  · rw [← hnodes]
    exact Walk.yields_nodes t _
  · rw [t.mem_descendants_iff, List.mem_cons, eq_comm]
  · exact fun a ha d hd => Tree.ancestor_sublist ha hd
  · exact fun p hp c c' hc => Tree.descendants_append_sublist hp hc
  · exact fun c p => Tree.prevSibling?_eq_some_iff

end CodeIndex.Syntax
