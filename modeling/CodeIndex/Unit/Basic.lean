/-!
# Units

A unit is the definition of a function, a type or a container, with the comments and attributes
above it. Units nest: the units of a file form a forest, in the order of the file.

The forest can also be listed flat. In the list every unit comes before the units inside it, and
refers to its parent and its children by their places.
-/

namespace CodeIndex

/-- What a unit defines. -/
inductive UnitKind where
  | function
  | type
  /-- Groups functions without being a type. -/
  | container
  deriving DecidableEq, Repr, Inhabited

/-- The name of a kind of unit. -/
def UnitKind.name : UnitKind → String
  | function => "function"
  | type => "type"
  | container => "container"

/-- A definition in a file. -/
structure CodeUnit where
  /-- The node of the definition itself, without what is wrapped around it. -/
  node : Nat
  kind : UnitKind
  name : Option String
  startLine : Nat
  endLine : Nat
  deriving DecidableEq, Repr, Inhabited

/-- A unit with the units inside it, in order. -/
inductive UnitTree where
  | node (unit : CodeUnit) (nested : List UnitTree)
  deriving Repr

namespace UnitTree

/-- The outermost unit. -/
def unit : UnitTree → CodeUnit
  | node unit _ => unit

/-- The units right inside the outermost one. -/
def nested : UnitTree → List UnitTree
  | node _ nested => nested

/-- The owner of what is right inside `unit`: the nearest unit around it that is no function. -/
def ownerInside (unit : CodeUnit) (owner : Option CodeUnit) : Option CodeUnit :=
  if unit.kind = .function then owner else some unit

/-! ### The flat list -/

/-- A unit in the flat list. -/
structure Entry where
  unit : CodeUnit
  /-- The place of the unit right around it. -/
  parent : Option Nat
  /-- The places of the units right inside it. -/
  children : List Nat
  /-- The nearest unit around it that is no function. -/
  owner : Option CodeUnit

mutual

/-- The number of units in a tree. -/
def size : UnitTree → Nat
  | node _ nested => 1 + sizeOfList nested

/-- The number of units in several trees. -/
def sizeOfList : List UnitTree → Nat
  | [] => 0
  | tree :: trees => size tree + sizeOfList trees

end

/-- The places of the outermost units, when the first of them is at `next`. -/
def places (next : Nat) : List UnitTree → List Nat
  | [] => []
  | tree :: trees => next :: places (next + tree.size) trees

mutual

/-- The entries of a tree whose outermost unit is at `next`. -/
def entries (next : Nat) (parent : Option Nat) (owner : Option CodeUnit) :
    UnitTree → List Entry
  | node unit nested =>
    ⟨unit, parent, places (next + 1) nested, owner⟩ ::
      entriesOfList (next + 1) (some next) (ownerInside unit owner) nested

/-- The entries of several trees, the first of which begins at `next`. -/
def entriesOfList (next : Nat) (parent : Option Nat) (owner : Option CodeUnit) :
    List UnitTree → List Entry
  | [] => []
  | tree :: trees =>
    entries next parent owner tree ++ entriesOfList (next + size tree) parent owner trees

end

/-- The flat list of a forest. -/
def listing (forest : List UnitTree) : List Entry :=
  entriesOfList 0 none none forest

end UnitTree

end CodeIndex
