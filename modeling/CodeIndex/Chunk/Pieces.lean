import CodeIndex.Chunk.Basic
import CodeIndex.LineIndex
import CodeIndex.Unit.Basic
/-!
# Pieces of a file

Where a file is cut. A unit within the token budget is one piece. A unit over it is cut at the
units inside it, if there are any, and stays whole and oversized if there are none. The lines
between units lose the blank lines at their edges and are cut into windows within the budget.

The walk keeps a cursor, the first line not yet taken. A unit begins no earlier than the cursor and
ends no later than the region around it, whatever lines its node claims, so pieces never overlap.
-/

namespace CodeIndex

/-- The limits of chunking, both positive. -/
structure ChunkLimits where
  maxTokens : Nat
  windowLines : Nat
  maxTokens_pos : 0 < maxTokens
  windowLines_pos : 0 < windowLines

namespace ChunkLimits

/-- The limits nearest to the given ones. -/
def ofNats (maxTokens windowLines : Nat) : ChunkLimits where
  maxTokens := max maxTokens 1
  windowLines := max windowLines 1
  maxTokens_pos := by omega
  windowLines_pos := by omega

/-- The limits that count when none are given. -/
def standard : ChunkLimits := ofNats 2000 80

end ChunkLimits

/-- What the lines of a piece belong to. -/
structure Attribution where
  kind : ChunkKind
  functionName : Option String
  className : Option String
  deriving DecidableEq, Repr

namespace Attribution

/-- Lines outside every unit. -/
def topLevel : Attribution := ⟨.topLevel, none, none⟩

/-- Lines of a file without a syntax tree. -/
def plain : Attribution := ⟨.text, none, none⟩

/-- A whole unit. A function is a method when the nearest unit around it that is no function has a
name. -/
def whole (unit : CodeUnit) (owner : Option CodeUnit) : Attribution :=
  if unit.kind = .function then
    match owner.bind (·.name) with
    | some name => ⟨.method, unit.name, some name⟩
    | none => ⟨.function, unit.name, none⟩
  else
    ⟨.type, none, unit.name⟩

/-- The lines of a unit that are outside the units inside it. -/
def inside (unit : CodeUnit) : Attribution :=
  if unit.kind = .function then ⟨.function, unit.name, none⟩ else ⟨.type, none, unit.name⟩

end Attribution

/-- A run of lines that becomes a chunk. -/
structure Piece where
  start : Nat
  stop : Nat
  attribution : Attribution
  oversized : Bool
  deriving DecidableEq, Repr

namespace Piece

/-- The windows of some lines as pieces. -/
def ofSpans (attribution : Attribution) (spans : List LineSpan) : List Piece :=
  spans.map fun span => ⟨span.start, span.stop, attribution, span.oversized⟩

/-- Lines outside the units of a region: no blank lines at the edges, and windows that only the
budget limits. -/
def gap (limits : ChunkLimits) (index : LineIndex) (attribution : Attribution)
    (start stop : Nat) : List Piece :=
  match index.trim start stop with
  | none => []
  | some (start, stop) =>
    ofSpans attribution (index.windows start stop index.size limits.maxTokens)

mutual

/-- The pieces of the lines `cursor` to `stop`, in which the units `trees` lie; the lines between
the units belong to `attribution`. -/
def region (limits : ChunkLimits) (index : LineIndex) (attribution : Attribution)
    (owner : Option CodeUnit) (cursor stop : Nat) : List UnitTree → List Piece
  | [] => if cursor ≤ stop then gap limits index attribution cursor stop else []
  | tree :: trees =>
    let first := max (tree.unit.startLine) cursor
    let last := min (tree.unit.endLine) stop
    if last < first then
      -- The unit has no line of its own left in the region.
      region limits index attribution owner cursor stop trees
    else
      (if cursor < first then gap limits index attribution cursor (first - 1) else []) ++
        unit limits index owner first last tree ++
        region limits index attribution owner (last + 1) stop trees

/-- The pieces of a unit on the lines `start` to `stop`. -/
def unit (limits : ChunkLimits) (index : LineIndex) (owner : Option CodeUnit)
    (start stop : Nat) : UnitTree → List Piece
  | .node unit nested =>
    if index.tokens start stop ≤ limits.maxTokens then
      [⟨start, stop, .whole unit owner, false⟩]
    else if nested.isEmpty then
      [⟨start, stop, .whole unit owner, true⟩]
    else
      region limits index (.inside unit) (UnitTree.ownerInside unit owner) start stop nested

end

/-- The pieces of a file with the units `forest`. -/
def semantic (limits : ChunkLimits) (index : LineIndex) (forest : List UnitTree) : List Piece :=
  region limits index .topLevel none 1 index.size forest

/-- The pieces of a file without a syntax tree. -/
def fallback (limits : ChunkLimits) (index : LineIndex) : List Piece :=
  ofSpans .plain (index.windows 1 index.size limits.windowLines limits.maxTokens)

end Piece

end CodeIndex
