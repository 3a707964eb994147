import CodeIndex.Proofs.Graph.Meaning
/-!
# The walk in terms of ancestors

The walk that extraction makes carries the scopes of a node along. They are the named definitions
among the ancestors of the node (`scopesAt`), so each can be told from the tree alone, and the walk
visits exactly the visible nodes in pre-order (`visits_eq`).
-/

namespace CodeIndex.Graph

open CodeIndex.Syntax

section Scopes

variable (t : Tree) (source : String)

/-- The scope that a named definition opens. -/
def scopeOf? (id : Nat) : Option Scope :=
  (qualifiedName? t source id).map fun qualified => ⟨!isTypeLike t id, qualified⟩

/-- The scopes of a node, the innermost first. -/
def scopesAt (id : Nat) : List Scope :=
  (t.ancestors id).filterMap (scopeOf? t source)

/-! ### Scopes and qualified names -/

/-- Around a node stand its parent, if that is a named definition, and what is around the parent. -/
theorem enclosing_of_parent {id p : Nat} (h : t.parent? id = some p) :
    enclosing t source id
      = if (definedName? t source p).isSome then p :: enclosing t source p
        else enclosing t source p := by
  rw [enclosing, t.ancestors_of_parent h, List.filter_cons]
  rfl

theorem scopesAt_of_parent {id p : Nat} (h : t.parent? id = some p) :
    scopesAt t source id = (scopeOf? t source p).toList ++ scopesAt t source p := by
  rw [scopesAt, t.ancestors_of_parent h, List.filterMap_cons]
  cases scopeOf? t source p <;> rfl

/-- A name qualified in the scopes of a node stands behind the names of all definitions around the
node. -/
theorem qualify_scopesAt (id : Nat) (name : String) :
    qualify t (scopesAt t source id) name
      = t.profile.separator.intercalate
          ((enclosing t source id).reverse.filterMap (definedName? t source) ++ [name]) := by
  induction id using Nat.strongRecOn with
  | _ id ih =>
  cases hparent : t.parent? id with
  | none =>
    have hancestors := t.ancestors_of_no_parent hparent
    rw [scopesAt, enclosing, hancestors]
    simp [qualify]
  | some p =>
    rw [scopesAt_of_parent t source hparent, enclosing_of_parent t source hparent]
    cases hname : definedName? t source p with
    | none =>
      -- An unnamed parent opens no scope.
      rw [scopeOf?, qualifiedName?, hname]
      exact ih p (t.parent_lt hparent)
    | some outer =>
      rw [scopeOf?, qualifiedName?, hname]
      simp only [Option.map_some, Option.toList_some, List.cons_append, List.nil_append, qualify,
        Option.isSome_some, if_true, List.reverse_cons, List.filterMap_append, List.filterMap_cons,
        hname, List.filterMap_nil]
      symm
      rw [String.intercalate_append_of_ne_nil (by simp) (by simp), String.intercalate_singleton]

theorem map_qualify_scopesAt (id : Nat) :
    (definedName? t source id).map (qualify t (scopesAt t source id))
      = qualifiedName? t source id := by
  rw [qualifiedName?]
  congr 1
  funext name
  exact qualify_scopesAt t source id name

/-- The scopes below a node are the scopes of its children. -/
theorem scopesBelow_scopesAt {id c : Nat} (h : c ∈ t.children id) :
    scopesBelow t source (scopesAt t source id) id = scopesAt t source c := by
  rw [scopesAt_of_parent t source (Tree.mem_children.mp h), scopesBelow, scopeOf?,
    ← map_qualify_scopesAt]
  cases definedName? t source id <;> rfl

/-! ### Visits -/

/-- A walk visits a node and then, unless it is an import, what is below each child. -/
theorem visitsAt_eq (scopes : List Scope) (id : Nat) :
    visitsAt t source scopes id
      = ⟨id, scopes⟩ :: if t.profile.isImport (t.kind id) then []
        else (t.children id).flatMap (visitsAt t source (scopesBelow t source scopes id)) := by
  rw [visitsAt]
  simp

/-- No import is strictly around the node. -/
def isVisible (id : Nat) : Bool :=
  (t.ancestors id).all fun a => !t.profile.isImport (t.kind a)

theorem visitsAt_scopesAt (id : Nat) (hvisible : isVisible t id = true) :
    visitsAt t source (scopesAt t source id) id
      = ((t.descendants id).filter (isVisible t)).map fun d => ⟨d, scopesAt t source d⟩ := by
  induction id using Tree.descendants.induct t with
  | case1 id ih =>
    rw [visitsAt_eq, t.descendants_eq, List.filter_cons_of_pos hvisible, List.map_cons]
    congr 1
    by_cases himport : t.profile.isImport (t.kind id) = true
    · -- Whatever is below an import has the import among its ancestors.
      rw [if_pos himport, List.filter_flatMap]
      symm
      rw [List.map_eq_nil_iff, List.flatMap_eq_nil_iff]
      intro c hc
      rw [List.filter_eq_nil_iff]
      intro d hd
      have hmem : id ∈ t.ancestors d := by
        have hchild := t.ancestors_of_mem_children hc
        rcases t.ancestors_of_mem_descendants c d hd with rfl | ⟨inner, hinner⟩
        · simp [hchild]
        · simp [hinner, hchild]
      simp only [isVisible, Bool.not_eq_true, List.all_eq_false]
      exact ⟨id, hmem, by simpa using himport⟩
    · rw [if_neg himport, List.filter_flatMap, List.map_flatMap]
      simp only [List.flatMap_def]
      congr 1
      refine List.map_congr_left fun c hc => ?_
      rw [scopesBelow_scopesAt t source hc]
      refine ih c hc ?_
      rw [isVisible, t.ancestors_of_mem_children hc, List.all_cons, Bool.and_eq_true]
      exact ⟨by simpa using himport, hvisible⟩

/-- The walk visits the visible nodes in pre-order, each in the scopes of its ancestors. -/
theorem visits_eq :
    visits t source = (visibleNodes t).map fun id => ⟨id, scopesAt t source id⟩ := by
  have hroot : scopesAt t source Tree.root = [] := by
    rw [scopesAt, t.ancestors_root, List.filterMap_nil]
  have hvisible : isVisible t Tree.root = true := by
    rw [isVisible, t.ancestors_root, List.all_nil]
  have h := visitsAt_scopesAt t source Tree.root hvisible
  rw [hroot] at h
  exact h

end Scopes

end CodeIndex.Graph
