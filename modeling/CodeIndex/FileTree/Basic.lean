/-!
# File trees

A directory as a value: files with their bytes, symbolic links with their targets, and directories.
An entry is a name, what it names and the entries behind it, so a tree is a list whose elements may
hold further lists, and functions on it recurse on its structure.
-/

namespace CodeIndex

/-- A directory: its entries in order, each in front of the rest. -/
inductive Directory where
  | empty
  | file (name : String) (content : List UInt8) (rest : Directory)
  | link (name target : String) (rest : Directory)
  | inside (name : String) (entries rest : Directory)
  deriving Inhabited

/-- What a name in a directory stands for. -/
inductive Node where
  | file (content : List UInt8)
  | link (target : String)
  | directory (entries : Directory)

namespace Directory

/-- The directory with one more entry in front. -/
def cons (name : String) (node : Node) (rest : Directory) : Directory :=
  match node with
  | .file content => .file name content rest
  | .link target => .link name target rest
  | .directory entries => .inside name entries rest

/-- The directory with some entries. -/
def ofList (entries : List (String × Node)) : Directory :=
  entries.foldr (fun (name, node) rest => cons name node rest) .empty

/-- The entries of a directory. -/
def toList : Directory → List (String × Node)
  | empty => []
  | file name content rest => (name, .file content) :: rest.toList
  | link name target rest => (name, .link target) :: rest.toList
  | inside name entries rest => (name, .directory entries) :: rest.toList

/-- What a name stands for. -/
def get? (d : Directory) (name : String) : Option Node :=
  d.toList.lookup name

/-- The directory with a name for something, in place of what the name stood for. -/
def put (name : String) (node : Node) : Directory → Directory
  | empty => cons name node empty
  | file n content rest =>
    if n = name then cons name node rest else file n content (put name node rest)
  | link n target rest =>
    if n = name then cons name node rest else link n target (put name node rest)
  | inside n entries rest =>
    if n = name then cons name node rest else inside n entries (put name node rest)

/-- The directory behind a name; the empty one when the name stands for none. -/
def subdirectory (d : Directory) (name : String) : Directory :=
  match d.get? name with
  | some (.directory entries) => entries
  | _ => empty

/-- The directory with something at the end of a path; directories on the way are made. -/
def insert (d : Directory) (path : List String) (node : Node) : Directory :=
  match path with
  | [] => d
  | [name] => d.put name node
  | name :: path => d.put name (.directory ((d.subdirectory name).insert path node))

/-- What stands at a path, no link of which is followed. -/
def at? (d : Directory) : List String → Option Node
  | [] => some (.directory d)
  | name :: path =>
    match d.get? name, path with
    | some (.directory entries), path => entries.at? path
    | some node, [] => some node
    | _, _ => none

end Directory

end CodeIndex
