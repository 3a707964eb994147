import CodeIndex.LineIndex
import CodeIndex.Number.Decimal
import CodeIndex.Report.Layout
import CodeIndex.Report.Records
/-!
# Reports

What the program prints about tasks, chunks and triples: lines for a reader, or JSON for a program.
-/

namespace CodeIndex.Report

open CodeIndex.Number

/-- How a report is written. -/
inductive Format where
  | terminal
  | json
  deriving DecidableEq, Repr

/-- A JSON report. -/
def document (value : Json) : String :=
  value.pretty ++ "\n"

/-! ### Tasks -/

/-- The whole milliseconds from one instant to another, cut off toward zero. -/
def millisecondsBetween (start stop : Time.Timestamp) : Int :=
  Int.tdiv ((stop.seconds - start.seconds) * 1000000000 + ((stop.nanos : Int) - start.nanos))
    1000000

/-- An integer in at least three places, a minus sign taking one of them. -/
def threePlaces (n : Int) : String :=
  if n < 0 then "-" ++ paddedText 2 n.natAbs else paddedText 3 n.natAbs

/-- A duration in seconds with three decimal places. -/
def durationText (milliseconds : Int) : String :=
  intText (Int.tdiv milliseconds 1000) ++ "." ++ threePlaces (Int.tmod milliseconds 1000) ++ "s"

/-- A line of a task's report, when there is something to write. -/
def optionalLine (label : String) : Option String → String
  | none => ""
  | some text => label ++ text ++ "\n"

/-- How long a task took, once it has ended. -/
def duration? (t : Task) : Option String := do
  let start ← t.startedAt
  let stop ← t.finishedAt
  durationText (millisecondsBetween start stop)

/-- A task for a reader. -/
def taskLines (t : Task) : String :=
  "Task:        " ++ t.id ++ "\n" ++
    "Source:      " ++ t.source ++ "\n" ++
    optionalLine "Branch:      " t.branch ++
    "Status:      " ++ t.status.name ++ "\n" ++
    "Files:       " ++ natText t.filesProcessed ++ "/" ++ natText t.totalFiles ++ " (" ++
    natText t.filesFailed ++ " failed)\n" ++
    "Chunks:      " ++ natText t.chunksEmitted ++ "\n" ++
    "Triples:     " ++ natText t.triplesEmitted ++ "\n" ++
    optionalLine "Duration:    " (duration? t) ++
    optionalLine "Error:       " t.error

/-- How far a task is, as one line that overwrites the line before. -/
def progressLine (t : Task) : String :=
  let percent := if t.totalFiles = 0 then 0 else t.filesProcessed * 100 / t.totalFiles
  "\r[" ++ padLeft 3 (natText percent) ++ "%] " ++ natText t.filesProcessed ++ "/" ++
    natText t.totalFiles ++ " " ++
    padRight 50 (String.ofList ((t.currentFile.getD "").toList.take 50))

/-- A task. -/
def task (format : Format) (t : Task) : String :=
  match format with
  | .json => document t.toJson
  | .terminal => taskLines t

/-! ### Chunks -/

/-- A line without the line break at its end. -/
def withoutBreak (line : List Char) : List Char :=
  match line.reverse with
  | '\n' :: '\r' :: rest => rest.reverse
  | '\n' :: rest => rest.reverse
  | _ => line

/-- The lines of a text without their line breaks. -/
def linesOf (text : String) : List String :=
  (Lines.split text.toList).map fun line => String.ofList (withoutBreak line)

/-- The name of a chunk: its type, its function, or both. -/
def chunkName (c : Chunk) : String :=
  match c.className, c.functionName with
  | some type, some function => type ++ "." ++ function
  | some type, none => type
  | none, some function => function
  | none, none => ""

/-- The marks behind the name of a chunk. -/
def chunkFlags (c : Chunk) : String :=
  let flags :=
    (if c.isFallback then ["fallback"] else []) ++ (if c.oversized then ["oversized"] else [])
  if flags.isEmpty then "" else " [" ++ String.intercalate ", " flags ++ "]"

/-- The text of a chunk with line numbers, and an empty line behind it. -/
def chunkContent (c : Chunk) : String :=
  let numbered := (linesOf c.content).mapIdx fun i line =>
    "      " ++ padLeft 5 (natText (c.startLine + i)) ++ " " ++ line ++ "\n"
  String.join numbered ++ "\n"

/-- One chunk for a reader. -/
def chunkLines (content : Bool) (c : Chunk) : String :=
  padLeft 3 (natText c.seq) ++ " " ++ padLeft 5 (natText c.startLine) ++ "-" ++
    padRight 5 (natText c.endLine) ++ " " ++ padRight 8 c.kind.name ++ " " ++
    padLeft 5 (natText c.tokenCount) ++ " tok  " ++ chunkName c ++ chunkFlags c ++ "\n" ++
    (if content then chunkContent c else "")

/-- Some chunks, with their text if it is asked for. -/
def chunks (format : Format) (content : Bool) (cs : List Chunk) : String :=
  match format with
  | .json => document (.arr (cs.map (if content then Chunk.toJson else Chunk.toSummary)))
  | .terminal => String.join (cs.map (chunkLines content))

/-! ### Triples -/

/-- One triple for a reader. -/
def tripleLine (t : Triple) : String :=
  padLeft 5 (natText t.line) ++ "  " ++ t.subject ++ " " ++ t.predicate.name ++ " " ++ t.object ++
    " -> " ++ t.targetSymbol ++ " (" ++ t.confidence.fixed2 ++ ")\n"

/-- Some triples. -/
def triples (format : Format) (ts : List Triple) : String :=
  match format with
  | .json => document (.arr (ts.map Triple.toJson))
  | .terminal => String.join (ts.map tripleLine)

end CodeIndex.Report
