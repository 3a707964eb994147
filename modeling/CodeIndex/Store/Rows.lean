import CodeIndex.Fault
import CodeIndex.Chunk.Basic
import CodeIndex.Json.StringList
import CodeIndex.Resource
import CodeIndex.Store.Cell
import CodeIndex.Triple
/-!
# Rows of a database

How records are written to rows and read back. Line numbers, sizes and counts are stored as signed
integers of 64 bits, warnings as JSON, instants as RFC 3339 text, and kinds by their names.

Reading a row checks the kind of every cell, in the order of the record's members; a cell of another
kind, and a name that means nothing, are faults of the database.

A confidence is a finite number. One that is not a number would be written as a missing value, which
its column refuses; no relationship has one, and it is left out.
-/

namespace CodeIndex.Store

/-- A column: its name and the kind it gives to what is written to it. -/
structure Column where
  name : String
  affinity : Affinity
  deriving DecidableEq, Repr

/-- The cells of a row, one for each column. -/
abbrev Row := List Cell

namespace Row

/-! ### Cells by column -/

/-- The cell of a column. -/
def cell (row : Row) (columns : List Column) (column : String) : Cell :=
  ((columns.zip row).find? fun (c, _) => c.name == column).elim .null (·.2)

/-- The row with another cell in a column, as the column takes it. -/
def set (row : Row) (columns : List Column) (column : String) (value : Cell) : Row :=
  (columns.zip row).map fun (c, old) => if c.name == column then value.written c.affinity else old

/-- The text of a cell, or nothing for any other cell. -/
def textOf (row : Row) (columns : List Column) (column : String) : Option String :=
  match row.cell columns column with
  | .text s => some s
  | _ => none

/-! ### Reading cells -/

/-- The place of a column in a list of selected columns. -/
def placeOf (selected : List String) (column : String) : Nat :=
  selected.findIdx (· == column)

/-- A reader of rows: the columns of the table and those that are selected, in their order. -/
structure Reader where
  columns : List Column
  selected : List String

/-- A cell of a kind that cannot be read. -/
def Reader.wrong {α : Type} (r : Reader) (column : String) (found : Cell) : Except Fault α :=
  .error (.database (.columnType found.kindName (placeOf r.selected column) column))

/-- A text. -/
def Reader.text (r : Reader) (row : Row) (column : String) : Except Fault String :=
  match row.cell r.columns column with
  | .text s => .ok s
  | found => r.wrong column found

/-- A text or nothing. -/
def Reader.text? (r : Reader) (row : Row) (column : String) : Except Fault (Option String) :=
  match row.cell r.columns column with
  | .text s => .ok (some s)
  | .null => .ok none
  | found => r.wrong column found

/-- An integer. -/
def Reader.integer (r : Reader) (row : Row) (column : String) : Except Fault Int :=
  match row.cell r.columns column with
  | .integer n => .ok n
  | found => r.wrong column found

/-- A natural number, stored as the integer with the same bits. -/
def Reader.nat (r : Reader) (row : Row) (column : String) : Except Fault Nat :=
  (r.integer row column).map Number.ofSigned64

/-- A truth value; every integer but zero is true. -/
def Reader.bool (r : Reader) (row : Row) (column : String) : Except Fault Bool :=
  (r.integer row column).map (· != 0)

/-- A number. -/
def Reader.real (r : Reader) (row : Row) (column : String) : Except Fault Number.Binary32 :=
  match row.cell r.columns column with
  | .real x => .ok x
  | .integer n => .ok (Cell.realOfInt n)
  | found => r.wrong column found

/-- What a name means. -/
def Reader.named {α : Type} (r : Reader) (ofName? : String → Option α) (what column : String)
    (name : String) : Except Fault α :=
  match ofName? name with
  | some x => .ok x
  | none => .error (.database (.unknownName (placeOf r.selected column) what name))

end Row

/-! ### Resources -/

namespace ResourceRow

/-- The columns of resources. -/
def columns : List Column :=
  [ ⟨"id", .text⟩, ⟨"relative_path", .text⟩, ⟨"repository_root", .text⟩, ⟨"commit_hash", .text⟩,
    ⟨"branch", .text⟩, ⟨"classification", .text⟩, ⟨"language", .text⟩,
    ⟨"ingestion_status", .text⟩, ⟨"content_hash", .text⟩, ⟨"size_bytes", .integer⟩,
    ⟨"warnings", .text⟩, ⟨"ingested_at", .text⟩ ]

/-- The row of a resource. -/
def encode (r : Resource) : Row :=
  [ .text r.id, .text r.relativePath, .text r.repositoryRoot, .ofText? r.commitHash,
    .ofText? r.branch, .text r.classification.name, .text r.language, .text r.status.name,
    .text r.contentHash, .ofNat r.sizeBytes, .text (Json.writeStrings r.warnings),
    .text r.ingestedAt.storedText ]

/-- The cells of a resource before their texts are read. -/
structure Raw where
  id : String
  relativePath : String
  repositoryRoot : String
  commitHash : Option String
  branch : Option String
  classification : String
  language : String
  status : String
  contentHash : String
  sizeBytes : Int
  warnings : String
  ingestedAt : String

/-- The cells of a row, each of the kind that its column is read as. -/
def readCells (row : Row) : Except Fault Raw := do
  let r : Row.Reader := ⟨columns, columns.map (·.name)⟩
  let id ← r.text row "id"
  let relativePath ← r.text row "relative_path"
  let repositoryRoot ← r.text row "repository_root"
  let commitHash ← r.text? row "commit_hash"
  let branch ← r.text? row "branch"
  let classification ← r.text row "classification"
  let language ← r.text row "language"
  let status ← r.text row "ingestion_status"
  let contentHash ← r.text row "content_hash"
  let sizeBytes ← r.integer row "size_bytes"
  let warnings ← r.text row "warnings"
  let ingestedAt ← r.text row "ingested_at"
  .ok ⟨id, relativePath, repositoryRoot, commitHash, branch, classification, language, status,
    contentHash, sizeBytes, warnings, ingestedAt⟩

/-- The instant of a resource. -/
def readInstant (text : String) : Except Fault Time.Timestamp :=
  match Time.Timestamp.parse text with
  | .ok t => .ok t
  | .error cause => .error (.persist (.badTimestamp text cause))

/-- The classification with a name. -/
def readClassification (name : String) : Except Fault Classification :=
  match Classification.ofName? name with
  | some c => .ok c
  | none => .error (.persist (.unknownClassification name))

/-- The status with a name. -/
def readStatus (name : String) : Except Fault ResourceStatus :=
  match ResourceStatus.ofName? name with
  | some s => .ok s
  | none => .error (.persist (.unknownStatus name))

/-- The warnings in their JSON text. -/
def readWarnings (text : String) : Except Fault (List String) :=
  match Json.readStrings text with
  | .ok warnings => .ok warnings
  | .error message => .error (.serialization message)

/-- The resource of some cells; a negative size counts as none. -/
def Raw.decode (raw : Raw) : Except Fault Resource := do
  let ingestedAt ← readInstant raw.ingestedAt
  let classification ← readClassification raw.classification
  let status ← readStatus raw.status
  let warnings ← readWarnings raw.warnings
  .ok
    { id := raw.id
      relativePath := raw.relativePath
      repositoryRoot := raw.repositoryRoot
      commitHash := raw.commitHash
      branch := raw.branch
      classification := classification
      language := raw.language
      status := status
      contentHash := raw.contentHash
      sizeBytes := raw.sizeBytes.toNat
      warnings := warnings
      ingestedAt := ingestedAt }

end ResourceRow

/-! ### Chunks -/

namespace ChunkRow

/-- The columns of chunks. -/
def columns : List Column :=
  [ ⟨"id", .text⟩, ⟨"resource_id", .text⟩, ⟨"seq", .integer⟩, ⟨"chunk_type", .text⟩,
    ⟨"function_name", .text⟩, ⟨"class_name", .text⟩, ⟨"start_line", .integer⟩,
    ⟨"end_line", .integer⟩, ⟨"language", .text⟩, ⟨"token_count", .integer⟩,
    ⟨"is_fallback", .integer⟩, ⟨"oversized", .integer⟩, ⟨"content_hash", .text⟩,
    ⟨"content", .text⟩ ]

/-- The row of a chunk. -/
def encode (c : Chunk) : Row :=
  [ .text c.id, .text c.resourceId, .ofNat c.seq, .text c.kind.name, .ofText? c.functionName,
    .ofText? c.className, .ofNat c.startLine, .ofNat c.endLine, .text c.language,
    .ofNat c.tokenCount, .ofBool c.isFallback, .ofBool c.oversized, .text c.contentHash,
    .text c.content ]

/-- The chunk of a row. -/
def decode (row : Row) : Except Fault Chunk := do
  let r : Row.Reader := ⟨columns, columns.map (·.name)⟩
  let kindName ← r.text row "chunk_type"
  let id ← r.text row "id"
  let resourceId ← r.text row "resource_id"
  let seq ← r.nat row "seq"
  let kind ← r.named ChunkKind.ofName? "chunk type" "chunk_type" kindName
  let functionName ← r.text? row "function_name"
  let className ← r.text? row "class_name"
  let startLine ← r.nat row "start_line"
  let endLine ← r.nat row "end_line"
  let language ← r.text row "language"
  let tokenCount ← r.nat row "token_count"
  let isFallback ← r.bool row "is_fallback"
  let oversized ← r.bool row "oversized"
  let contentHash ← r.text row "content_hash"
  let content ← r.text row "content"
  .ok ⟨id, resourceId, seq, kind, functionName, className, startLine, endLine, language, tokenCount,
    isFallback, oversized, contentHash, content⟩

end ChunkRow

/-! ### Triples -/

namespace TripleRow

/-- The columns of triples. -/
def columns : List Column :=
  [ ⟨"id", .text⟩, ⟨"resource_id", .text⟩, ⟨"subject", .text⟩, ⟨"predicate", .text⟩,
    ⟨"object", .text⟩, ⟨"source_file", .text⟩, ⟨"target_symbol", .text⟩,
    ⟨"line_number", .integer⟩, ⟨"confidence", .real⟩ ]

/-- The row of a triple, with its computed id. -/
def encode (t : Triple) : Row :=
  [ .text t.id, .text t.resourceId, .text t.subject, .text t.predicate.name, .text t.object,
    .text t.sourceFile, .text t.targetSymbol, .ofNat t.line, .real t.confidence ]

/-- The triple of a row. Its id is not read: it is computed from the rest. -/
def decode (row : Row) : Except Fault Triple := do
  let r : Row.Reader := ⟨columns, (columns.map (·.name)).drop 1⟩
  let predicateName ← r.text row "predicate"
  let resourceId ← r.text row "resource_id"
  let subject ← r.text row "subject"
  let predicate ← r.named Predicate.ofName? "predicate" "predicate" predicateName
  let object ← r.text row "object"
  let sourceFile ← r.text row "source_file"
  let targetSymbol ← r.text row "target_symbol"
  let line ← r.nat row "line_number"
  let confidence ← r.real row "confidence"
  .ok ⟨resourceId, subject, predicate, object, sourceFile, targetSymbol, line, confidence⟩

end TripleRow

end CodeIndex.Store
