import CodeIndex.Text.Lowercase
import CodeIndex.Text.Split
/-!
# Paths

Paths are texts with slashes. What a path means is its list of components: repeated slashes and dots
between slashes do not count, a slash in front is a component of its own, and so is a dot that the
path begins with.
-/

namespace CodeIndex.Path

open CodeIndex.Text

/-! ### Components -/

/-- The component of the root directory. -/
def rootComponent : String := "/"

/-- The path begins at the root directory. -/
def isAbsolute (path : String) : Bool :=
  path.toList.head? == some '/'

/-- The parts of a path between slashes. -/
def parts (path : String) : List String :=
  (splitChar '/' path.toList).map String.ofList

/-- The components of a path. -/
def components (path : String) : List String :=
  let named := (parts path).filter fun part => part != "" && part != "."
  if isAbsolute path then rootComponent :: named
  else if (parts path).head? == some "." then "." :: named
  else named

/-- The path made of some components. -/
def ofComponents (cs : List String) : String :=
  match cs with
  | "/" :: rest => "/" ++ String.intercalate "/" rest
  | cs => String.intercalate "/" cs

/-- `path` below `directory`; an absolute `path` stands for itself. -/
def join (directory path : String) : String :=
  if isAbsolute path || directory.isEmpty then path
  else if directory.toList.getLast? == some '/' then directory ++ path
  else directory ++ "/" ++ path

/-! ### Names and extensions -/

/-- The last component, if it names something. -/
def fileName? (path : String) : Option String :=
  match (components path).getLast? with
  | some name => if name == "/" || name == "." || name == ".." then none else some name
  | none => none

/-- What stands behind the last dot of a name; a dot in front only hides a file. -/
def extensionOfName? (name : String) : Option String :=
  match splitLast? ['.'] name.toList with
  | some (before, after) => if before.isEmpty then none else some (String.ofList after)
  | none => none

/-- The extension of a path. -/
def extension? (path : String) : Option String :=
  (fileName? path).bind extensionOfName?

/-- The path without its last component; the root and the empty path have none. -/
def parent? (path : String) : Option String :=
  match (components path).reverse with
  | [] => none
  | ["/"] => none
  | _ :: rest => some (ofComponents rest.reverse)

/-! ### Relative paths -/

/-- The components of `path` below `root`, if it lies there. -/
def below? (root path : String) : Option (List String) :=
  let cs := components path
  let rs := components root
  if rs.isPrefixOf cs then some (cs.drop rs.length) else none

/-- The path of `path` below `root` with slashes, or all of `path` when it lies elsewhere. -/
def relativeTo (root path : String) : String :=
  String.intercalate "/" ((below? root path).getD (components path))

/-- A path with every backslash as a slash. -/
def withSlashes (path : String) : String :=
  String.ofList (path.toList.map fun c => if c == '\\' then '/' else c)

/-- The path by which a file is classified: below the working directory if it lies there, otherwise
as it is. -/
def forClassification (cwd : Option String) (absolute : String) : String :=
  match cwd.bind fun cwd => below? cwd absolute with
  | some cs => String.intercalate "/" cs
  | none => withSlashes absolute

end CodeIndex.Path
