import CodeIndex.Syntax.Name
import CodeIndex.Unit.Basic
/-!
# Collecting units

The units of a syntax tree. A definition inside a wrapper, such as an exported or decorated one,
becomes one unit that spans the wrapper; what else the wrapper holds is not searched. The root is
never a unit.
-/

namespace CodeIndex.UnitTree

open CodeIndex.Syntax

/-! ### Definitions -/

/-- The definition that a node stands for: what a wrapper holds, otherwise the node itself. -/
def definition (t : Tree) (id : Nat) : Nat :=
  match t.profile.wrappedField? (t.kind id) with
  | none => id
  | some field => (t.childByField? id field).getD id

/-- What nodes of this kind define, if they define anything. -/
def kind? (t : Tree) (kind : String) : Option UnitKind :=
  if t.profile.isFunction kind then some .function
  else if t.profile.isType kind then some .type
  else if t.profile.isContainer kind then some .container
  else none

/-- The definition of a node is the node or one of its children. -/
theorem le_definition (t : Tree) (id : Nat) : id ≤ definition t id := by
  unfold definition
  split
  · exact Nat.le_refl _
  · rename_i field _
    cases h : t.childByField? id field with
    | none => exact Nat.le_refl _
    | some c => exact Nat.le_of_lt (Tree.lt_of_mem_children (Tree.mem_children_of_childByField? h))

/-! ### What stands above a definition -/

/-- The nodes before `id` under the same parent, the nearest first. -/
def siblingsBefore (t : Tree) (id : Nat) : List Nat :=
  match t.parent? id with
  | none => []
  | some p => ((t.children p).takeWhile (· != id)).reverse

/-- The first line when `start` is extended upwards over comments and attributes: each of them has
to end on the line before the lines so far, or further down.

Lines are numbers without an upper bound here. With numbers of 64 bits the line behind the last one,
2⁶⁴ - 1, would not be a number, so a node that ends on that line is left out of account. -/
def extendUp (t : Tree) (start : Nat) : List Nat → Nat
  | [] => start
  | id :: rest =>
    let node := t.node id
    if t.profile.isLeading node.kind && start ≤ node.endLine + 1 then
      extendUp t (min start node.startLine) rest
    else
      start

/-- The first line of a definition with the comments and attributes right above it. -/
def leadingStart (t : Tree) (id : Nat) : Nat :=
  extendUp t (t.node id).startLine (siblingsBefore t id)

/-! ### Collecting -/

/-- The units at and below a node. -/
def collectAt (t : Tree) (source : String) (id : Nat) : List UnitTree :=
  match kind? t (t.kind (definition t id)) with
  | none => (t.children id).attach.flatMap fun ⟨c, _⟩ => collectAt t source c
  | some kind =>
    let unit : CodeUnit :=
      { node := definition t id
        kind := kind
        name := t.name? (definition t id) source
        startLine := leadingStart t id
        endLine := (t.node id).endLine }
    [.node unit
      ((t.children (definition t id)).attach.flatMap fun ⟨c, _⟩ => collectAt t source c)]
termination_by t.nodes.size - id
decreasing_by
  · rename_i h
    have := Tree.lt_of_mem_children h
    have := Tree.lt_size_of_mem_children h
    omega
  · rename_i h
    have := Tree.lt_of_mem_children h
    have := Tree.lt_size_of_mem_children h
    have := le_definition t id
    omega

/-- The units of a tree: those below the root. -/
def collect (t : Tree) (source : String) : List UnitTree :=
  (t.children Tree.root).flatMap (collectAt t source)

end CodeIndex.UnitTree
