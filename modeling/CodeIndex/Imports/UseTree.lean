import CodeIndex.Imports.Basic
/-!
# Use trees

A use declaration holds a tree: a path can be followed by a list of further trees, a path can be
renamed, and a star takes in everything below a path. The tree is read off the syntax tree first and
then flattened into one import for each leaf, in order.
-/

namespace CodeIndex.Imports

open CodeIndex.Syntax

/-- What a use declaration imports. -/
inductive UseTree where
  /-- A path. -/
  | path (text : String)
  /-- The word that stands for the path around it. -/
  | self (text : String)
  /-- A path under another name; the name may be missing. -/
  | renamed (text : String) (alias? : Option String)
  /-- Everything below a path. -/
  | wildcard (text? : Option String)
  /-- Several trees. -/
  | list (items : List UseTree)
  /-- A tree below a path. -/
  | scoped (text? : Option String) (inner : UseTree)
  /-- A node that imports nothing. -/
  | nothing
  deriving Repr

namespace UseTree

/-! ### Paths -/

/-- A path below another; the empty path adds nothing. -/
def join (outer inner : String) : String :=
  if outer.isEmpty then inner else outer ++ "::" ++ inner

/-- The path in front of a tree, extended if the tree has a path of its own. -/
def extend (outer : String) : Option String → String
  | some inner => join outer inner
  | none => outer

/-- The last segment of a path. -/
def lastSegment (path : String) : String :=
  String.ofList (Text.afterLast [':', ':'] path.toList)

/-! ### Flattening -/

/-- The import of one path under its own last segment. -/
def leaf (line : Nat) (path : String) : Import :=
  .binding path line [⟨lastSegment path, path⟩]

mutual

/-- The imports of a tree below the path `outer`, one for each leaf. -/
def imports (line : Nat) (outer : String) : UseTree → List Import
  | .path text => [leaf line (join outer text)]
  | .self text => [leaf line (if outer.isEmpty then text else outer)]
  | .renamed text alias? =>
    let full := join outer text
    [.binding full line [⟨alias?.getD (lastSegment full), full⟩]]
  | .wildcard text? => [.all (extend outer text?) line]
  | .list items => importsOfList line outer items
  | .scoped text? inner => imports line (extend outer text?) inner
  | .nothing => []

/-- The imports of several trees in order. -/
def importsOfList (line : Nat) (outer : String) : List UseTree → List Import
  | [] => []
  | item :: items => imports line outer item ++ importsOfList line outer items

end

/-! ### Reading -/

/-- The text of a node without the white space at its edges. -/
def trimmedText (t : Tree) (source : String) (id : Nat) : String :=
  Text.trim (t.text id source)

/-- The use tree at a node. -/
def ofNode (t : Tree) (source : String) (id : Nat) : UseTree :=
  let text := trimmedText t source
  match t.kind id with
  | "use_as_clause" =>
    match t.childByField? id "path" with
    | none => .nothing
    | some inner => .renamed (text inner) ((t.childByField? id "alias").map text)
  | "scoped_use_list" =>
    match _h : t.childByField? id "list" with
    | none => .nothing
    | some items => .scoped ((t.childByField? id "path").map text) (ofNode t source items)
  | "use_list" => .list ((t.children id).attach.map fun ⟨c, _⟩ => ofNode t source c)
  | "use_wildcard" => .wildcard ((t.children id).head?.map text)
  | "self" => .self (text id)
  | "identifier" | "scoped_identifier" | "crate" | "super" => .path (text id)
  | _ => .nothing
termination_by t.nodes.size - id
decreasing_by
  · have hm := Tree.mem_children_of_childByField? _h
    have := Tree.lt_of_mem_children hm
    have := Tree.lt_size_of_mem_children hm
    omega
  · rename_i hm
    have := Tree.lt_of_mem_children hm
    have := Tree.lt_size_of_mem_children hm
    omega

end UseTree

/-- The imports of a Rust use declaration. -/
def readUse (t : Tree) (source : String) (id : Nat) : List Import :=
  match t.childByField? id "argument" with
  | none => []
  | some argument => (UseTree.ofNode t source argument).imports (t.node id).startLine ""

end CodeIndex.Imports
