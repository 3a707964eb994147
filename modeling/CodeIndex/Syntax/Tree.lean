import CodeIndex.Language.Profile
import CodeIndex.Text.Utf8
/-!
# Syntax trees

A tree is an array of nodes that know their parents; the root is node zero and every node comes
after its parent. Lines and byte ranges are whatever the parser reported: nothing is assumed of
them, and the text of a node is only there when its range fits the source.

The children of a node are the nodes that name it as their parent, in order. Because a child comes
after its parent, every walk from a node to its children ends.
-/

namespace CodeIndex.Syntax

open CodeIndex.Language

/-- A node of a syntax tree. Nodes are named by their place in the array, their id. -/
structure Node where
  kind : String
  /-- The field of the parent that the node stands in. -/
  field : Option String
  startByte : Nat
  endByte : Nat
  startLine : Nat
  endLine : Nat
  parent : Option Nat
  isError : Bool
  deriving DecidableEq, Repr, Inhabited

/-- Every parent comes before its children. -/
def parentsFirst (nodes : Array Node) : Bool :=
  (List.range nodes.size).all fun id =>
    match nodes[id]? with
    | none => true
    | some node => node.parent.all (· < id)

/-- For each node its children in order. -/
def childTable (nodes : Array Node) : Array (List Nat) :=
  (Array.range nodes.size).map fun id =>
    (List.range nodes.size).filter fun c => (nodes[c]?.bind (·.parent)) == some id

/-- A syntax tree of a language. -/
structure Tree where
  language : String
  profile : Profile
  nodes : Array Node
  parents_first : parentsFirst nodes = true
  /-- The children of each node, kept so that they need not be searched for. -/
  childIds : Array (List Nat)
  childIds_eq : childIds = childTable nodes

namespace Tree

/-- The tree of some nodes, if every parent comes before its children. -/
def ofNodes? (language : String) (profile : Profile) (nodes : Array Node) : Option Tree :=
  if h : parentsFirst nodes = true then some ⟨language, profile, nodes, h, _, rfl⟩ else none

/-! ### Nodes -/

/-- The root of every tree. -/
def root : Nat := 0

/-- The number of nodes. -/
def size (t : Tree) : Nat := t.nodes.size

/-- The node with an id. -/
def node? (t : Tree) (id : Nat) : Option Node := t.nodes[id]?

/-- The node with an id, or a node without any content. -/
def node (t : Tree) (id : Nat) : Node := t.nodes.getD id default

/-- The kind of a node. -/
def kind (t : Tree) (id : Nat) : String := (t.node id).kind

/-- The parent of a node. -/
def parent? (t : Tree) (id : Nat) : Option Nat := (t.node? id).bind (·.parent)

/-- Some node of the tree stands for a syntax error. -/
def hasErrors (t : Tree) : Bool := t.nodes.any (·.isError)

/-- The children of a node in order; none for an id outside the tree. -/
def children (t : Tree) (id : Nat) : List Nat := t.childIds.getD id []

/-- A parent comes before its children. -/
theorem parent_lt (t : Tree) {id p : Nat} (h : t.parent? id = some p) : p < id := by
  unfold parent? node? at h
  cases hn : t.nodes[id]? with
  | none => simp [hn] at h
  | some node =>
    have hid : id < t.nodes.size := by
      rcases Array.getElem?_eq_some_iff.1 hn with ⟨hlt, _⟩; exact hlt
    have hall := t.parents_first
    unfold parentsFirst at hall
    rw [List.all_eq_true] at hall
    have := hall id (List.mem_range.2 hid)
    simp only [hn, Option.bind_some] at h this
    simpa [h] using this

/-- The children of a node are the nodes that name it as their parent. -/
theorem mem_children {t : Tree} {id c : Nat} : c ∈ t.children id ↔ t.parent? c = some id := by
  have key : ∀ {c p : Nat}, t.parent? c = some p → c < t.nodes.size := by
    intro c p h
    unfold parent? node? at h
    cases hn : t.nodes[c]? with
    | none => simp [hn] at h
    | some node => exact (Array.getElem?_eq_some_iff.1 hn).1
  unfold children
  rw [t.childIds_eq]
  unfold childTable
  by_cases hid : id < t.nodes.size
  · simp only [Array.getD_eq_getD_getElem?, Array.getElem?_map, Array.getElem?_range, hid,
      ↓reduceIte, Option.map_some, Option.getD_some, List.mem_filter, List.mem_range, beq_iff_eq]
    exact ⟨fun h => h.2, fun h => ⟨key h, h⟩⟩
  · simp only [Array.getD_eq_getD_getElem?, Array.getElem?_map, Array.getElem?_range, hid,
      ↓reduceIte, Option.map_none, Option.getD_none, List.not_mem_nil, false_iff]
    intro h
    have := key h
    have := t.parent_lt h
    omega

/-- A child lies further back in the array than its parent. -/
theorem lt_of_mem_children {t : Tree} {id c : Nat} (h : c ∈ t.children id) : id < c :=
  t.parent_lt (mem_children.1 h)

/-- A child is a node of the tree. -/
theorem lt_size_of_mem_children {t : Tree} {id c : Nat} (h : c ∈ t.children id) :
    c < t.nodes.size := by
  have h := mem_children.1 h
  unfold parent? node? at h
  cases hn : t.nodes[c]? with
  | none => simp [hn] at h
  | some node => exact (Array.getElem?_eq_some_iff.1 hn).1

/-! ### Looking up children -/

/-- The first child that stands in a field. -/
def childByField? (t : Tree) (id : Nat) (field : String) : Option Nat :=
  (t.children id).find? fun c => (t.node c).field == some field

/-- The children that stand in a field. -/
def childrenByField (t : Tree) (id : Nat) (field : String) : List Nat :=
  (t.children id).filter fun c => (t.node c).field == some field

/-- The first child of a kind. -/
def childOfKind? (t : Tree) (id : Nat) (kind : String) : Option Nat :=
  (t.children id).find? fun c => t.kind c == kind

/-- A child found by its field is a child. -/
theorem mem_children_of_childByField? {t : Tree} {id c : Nat} {field : String}
    (h : t.childByField? id field = some c) : c ∈ t.children id :=
  List.mem_of_find?_eq_some h

/-- The element of `ids` right before `id`. -/
def before? (id : Nat) : List Nat → Option Nat
  | a :: b :: rest => if b = id then some a else before? id (b :: rest)
  | _ => none

/-- The child right before `id` under the same parent. -/
def prevSibling? (t : Tree) (id : Nat) : Option Nat :=
  (t.parent? id).bind fun p => before? id (t.children p)

/-! ### Walking -/

/-- `id` and everything below it, every node before what is below it and children in order. -/
def descendants (t : Tree) (id : Nat) : List Nat :=
  id :: (t.children id).attach.flatMap fun ⟨c, _⟩ => t.descendants c
termination_by t.nodes.size - id
decreasing_by
  rename_i h
  have := lt_of_mem_children h
  have := lt_size_of_mem_children h
  omega

/-! ### Text -/

/-- The text of a node, when its range fits the source. -/
def text? (t : Tree) (id : Nat) (source : String) : Option String :=
  (t.node? id).bind fun node => Text.slice? source node.startByte node.endByte

/-- The text of a node; nothing when its range does not fit the source. -/
def text (t : Tree) (id : Nat) (source : String) : String :=
  (t.text? id source).getD ""

end Tree

end CodeIndex.Syntax
