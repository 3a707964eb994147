/-!
# Chunks

A chunk is a run of lines of a file with its text, the names it belongs to and its token estimate.
-/

namespace CodeIndex

/-- What the lines of a chunk are. -/
inductive ChunkKind where
  /-- Lines of a function outside every type. -/
  | function
  /-- Lines of a function inside a type or a container. -/
  | method
  /-- Lines of a type or a container. -/
  | type
  /-- Lines outside every unit. -/
  | topLevel
  /-- A window of a file that has no syntax tree. -/
  | text
  deriving DecidableEq, Repr, Inhabited

namespace ChunkKind

/-- The name of a kind in records. -/
def name : ChunkKind → String
  | function => "function"
  | method => "method"
  | type => "class"
  | topLevel => "module"
  | text => "text"

/-- Every kind. -/
def all : List ChunkKind := [function, method, type, topLevel, text]

/-- The kind with a name. -/
def ofName? (s : String) : Option ChunkKind :=
  all.find? fun c => c.name == s

end ChunkKind

/-- A run of lines of a file; lines are numbered from one and the range is inclusive. -/
structure Chunk where
  id : String
  resourceId : String
  /-- The position among the chunks of the file, from zero. -/
  seq : Nat
  kind : ChunkKind
  functionName : Option String
  className : Option String
  startLine : Nat
  endLine : Nat
  language : String
  tokenCount : Nat
  isFallback : Bool
  /-- The chunk exceeds the token budget and cannot be split. -/
  oversized : Bool
  contentHash : String
  content : String
  deriving DecidableEq, Repr

end CodeIndex
