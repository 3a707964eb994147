import CodeIndex.Chunk.Pieces
import CodeIndex.Fault
import CodeIndex.Resource
import CodeIndex.Unit.Collect
/-!
# Building chunks

From a file to its chunks. A file whose parser gave a tree is cut along its units; a file without a
parser, or whose parser failed, is cut into windows, and a failure leaves a warning. A file that
yields no piece, because it is empty or blank, becomes one chunk at line one.
-/

namespace CodeIndex

/-- What came of parsing a file. -/
inductive Parsed where
  /-- No parser claims the file. -/
  | unsupported
  | failed (fault : Fault)
  | tree (t : Syntax.Tree)

namespace Parsed

/-- The tree, if there is one. -/
def tree? : Parsed → Option Syntax.Tree
  | tree t => some t
  | _ => none

/-- What chunking reports about the parse. -/
def warnings : Parsed → List String
  | unsupported => []
  | failed fault => ["parse failed, fallback chunking used: " ++ fault.message]
  | tree t => if t.hasErrors then ["syntax errors recovered during parsing"] else []

end Parsed

/-- The chunks of a file, with the tree they were cut along and what there is to report. -/
structure ChunkBuild where
  chunks : List Chunk
  tree : Option Syntax.Tree
  warnings : List String

namespace ChunkBuild

/-- The file was cut into windows. -/
def isFallback (build : ChunkBuild) : Bool := build.tree.isNone

/-- The chunk of one piece. The lines of an empty file have no text of their own. -/
def chunkOf (resource : Resource) (index : LineIndex) (isFallback : Bool) (seq : Nat)
    (piece : Piece) : Chunk :=
  let text := index.slice piece.start piece.stop
  let contentHash := Identity.fingerprint (Text.octets text)
  { id := Identity.ofChunk resource.id piece.start piece.stop contentHash
    resourceId := resource.id
    seq := seq
    kind := piece.attribution.kind
    functionName := piece.attribution.functionName
    className := piece.attribution.className
    startLine := piece.start
    endLine := piece.stop
    language := resource.language
    tokenCount := estimateTokens text
    isFallback := isFallback
    oversized := piece.oversized
    contentHash := contentHash
    content := text }

/-- The pieces of a file, without the piece that covers a blank file. -/
def piecesOf (limits : ChunkLimits) (index : LineIndex) (content : String) :
    Option Syntax.Tree → List Piece
  | some t => Piece.semantic limits index (UnitTree.collect t content)
  | none => Piece.fallback limits index

/-- The piece that covers a file without any other. -/
def coverPiece (isFallback : Bool) : Piece :=
  ⟨1, 1, if isFallback then .plain else .topLevel, false⟩

/-- Some pieces, or the one that covers the file when there are none. -/
def orCover (isFallback : Bool) (pieces : List Piece) : List Piece :=
  if pieces.isEmpty then [coverPiece isFallback] else pieces

/-- Cuts a file into chunks. -/
def build (limits : ChunkLimits) (resource : Resource) (parsed : Parsed) (content : String) :
    ChunkBuild :=
  let index := LineIndex.ofText content
  let tree := parsed.tree?
  let pieces := orCover tree.isNone (piecesOf limits index content tree)
  { chunks := pieces.mapIdx (chunkOf resource index tree.isNone)
    tree := tree
    warnings := parsed.warnings }

end ChunkBuild

end CodeIndex
