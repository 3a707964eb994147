import CodeIndex.Syntax.Tree
/-!
# Walking with a stack

A walk over a tree that can pause after any node. It keeps the nodes whose turn has still to come on
a stack, the next one on top. A step takes the top off and puts the children of that node on, the
last of them first, so that the first child comes next.

A walk ends: with each step there is one node less at and below the nodes on the stack
(`remaining_of_next?`).
-/

namespace CodeIndex.Syntax

/-- A walk under way. The top of its stack is at the end. -/
structure Walk where
  stack : Array Nat
  deriving DecidableEq, Repr

namespace Walk

variable {t : Tree} {w w' : Walk} {id : Nat}

/-- The walk that begins with a node. -/
def start (id : Nat) : Walk :=
  ⟨#[id]⟩

/-! ### Steps -/

/-- The node whose turn it is, and the walk behind it. -/
def next? (t : Tree) (w : Walk) : Option (Nat × Walk) :=
  w.stack.back?.map fun id => (id, ⟨w.stack.pop ++ (t.children id).reverse⟩)

/-- A step takes the top of the stack off and leaves the children there. -/
theorem next?_eq_some_iff :
    w.next? t = some (id, w') ↔
      ∃ below : Array Nat, w.stack = below.push id ∧
        w'.stack = below ++ (t.children id).reverse := by
  rw [next?, Option.map_eq_some_iff]
  constructor
  · rintro ⟨top, htop, heq⟩
    obtain ⟨rfl, rfl⟩ := Prod.mk.inj heq
    obtain ⟨below, hstack⟩ := Array.back?_eq_some_iff.mp htop
    exact ⟨below, hstack, by simp [hstack]⟩
  · rintro ⟨below, hstack, hstack'⟩
    refine ⟨id, by simp [hstack], ?_⟩
    rw [hstack, Array.pop_push, ← hstack']

theorem next?_eq_none_iff : w.next? t = none ↔ w.stack = #[] := by
  rw [next?, Option.map_eq_none_iff, Array.back?_eq_none_iff]

/-! ### Walking to the end -/

/-- How many nodes there are at and below the nodes on the stack. -/
def remaining (t : Tree) (w : Walk) : Nat :=
  (w.stack.toList.flatMap t.descendants).length

theorem remaining_of_next? (h : w.next? t = some (id, w')) :
    w.remaining t = w'.remaining t + 1 := by
  obtain ⟨below, hstack, hstack'⟩ := next?_eq_some_iff.mp h
  have hchildren : ((t.children id).reverse.flatMap t.descendants).length + 1
      = (t.descendants id).length := by
    have hperm := (t.children id).reverse_perm.flatMap_right t.descendants
    rw [hperm.length_eq, Tree.descendants, List.length_cons]
    simp
  rw [remaining, remaining, hstack, hstack', Array.toList_push, Array.toList_appendList,
    List.flatMap_append, List.flatMap_append, List.length_append, List.length_append,
    Nat.add_assoc, hchildren, List.flatMap_singleton]

/-- The nodes that the walk has still to come to, in order. -/
def nodes (t : Tree) (w : Walk) : List Nat :=
  match _h : w.next? t with
  | none => []
  | some (id, w') => id :: w'.nodes t
termination_by w.remaining t
decreasing_by
  rw [remaining_of_next? _h]
  exact Nat.lt_succ_self _

end Walk

end CodeIndex.Syntax
