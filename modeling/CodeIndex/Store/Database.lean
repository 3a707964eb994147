import CodeIndex.Keyed
import CodeIndex.Store.Attempt
import CodeIndex.Store.Rows
/-!
# The store in a database

Three tables: resources, chunks and triples. The id of a row is unique in its table; a chunk or
triple with an id that is there already takes the place of that row, whichever resource it belonged
to, and counts as the latest row of the table. Every chunk and triple names a resource that has a
row.

All writes to several rows are transactions: when one row fails, no row was written.
-/

namespace CodeIndex.Store

open CodeIndex.Keyed

/-- The tables of a database, each in the order in which its rows were written. -/
structure Database where
  /-- The tables exist. -/
  created : Bool
  resources : List Row
  chunks : List Row
  triples : List Row
  deriving DecidableEq

namespace Database

/-- A database without tables. -/
def fresh : Database := ⟨false, [], [], []⟩

/-- Creates the tables unless they are there. -/
def createTables (d : Database) : Database := { d with created := true }

/-- A database with empty tables. -/
def empty : Database := createTables fresh

/-- The version of the tables, once they exist. -/
def schemaVersion? (d : Database) : Option Nat := if d.created then some 1 else none

/-! ### Rows and keys -/

/-- The id of a row: its first cell. -/
def rowId (row : Row) : Cell := row.headD .null

/-- The resource that a row of chunks or triples belongs to: its second cell. -/
def rowOwner (row : Row) : Cell := (row.drop 1).headD .null

/-- A resource row with this id exists. -/
def hasResource (d : Database) (id : Cell) : Bool :=
  d.resources.any fun row => rowId row == id

/-- `row` as the latest row, in place of any row with its id. -/
def insertOrReplace (row : Row) (rows : List Row) : List Row :=
  (rows.filter fun r => rowId r != rowId row) ++ [row]

/-- The rows that do not belong to a resource. -/
def withoutOwner (id : String) (rows : List Row) : List Row :=
  rows.filter fun row => rowOwner row != .text id

/-! ### Statements -/

/-- A write to a table that has to exist. -/
def onTable (table : String) (write : Attempt Database) : Attempt Database := fun d =>
  if d.created then write d else (d, some (.database (.noSuchTable table)))

/-- The row of a resource after an upsert over `stored`: the paths stay as they were. -/
def updatedRow (stored row : Row) : Row :=
  stored.take 3 ++ row.drop 3

/-- Inserts or updates the row of a resource. -/
def writeResource (r : Resource) : Attempt Database :=
  onTable "resources" <| .change fun d =>
    let row := ResourceRow.encode r
    if d.hasResource (rowId row) then
      { d with
        resources := d.resources.map fun stored =>
          if rowId stored == rowId row then updatedRow stored row else stored }
    else
      { d with resources := d.resources ++ [row] }

/-- Sets the status of a resource, and inserts the resource when it has no row. -/
def writeStatus (r : Resource) : Attempt Database :=
  onTable "resources" fun d =>
    if d.hasResource (.text r.id) then
      ({ d with
        resources := d.resources.map fun stored =>
          if rowId stored == .text r.id then
            stored.set ResourceRow.columns "ingestion_status" (.text r.status.name)
          else stored }, none)
    else
      writeResource r d

/-- Inserts a row of chunks, or puts it in place of the one with its id. -/
def insertChunk (c : Chunk) : Attempt Database := fun d =>
  let row := ChunkRow.encode c
  if d.hasResource (rowOwner row) then ({ d with chunks := insertOrReplace row d.chunks }, none)
  else (d, some (.database .foreignKey))

/-- Inserts a row of triples, or puts it in place of the one with its id. -/
def insertTriple (t : Triple) : Attempt Database := fun d =>
  let row := TripleRow.encode t
  if d.hasResource (rowOwner row) then ({ d with triples := insertOrReplace row d.triples }, none)
  else (d, some (.database .foreignKey))

/-- Refuses chunks of another resource than `id`. -/
def refuseStrayChunk (id : String) (cs : List Chunk) : Attempt Database :=
  match cs.find? fun c => c.resourceId != id with
  | some stray => .fail (.persist (.strayChunk stray.id stray.resourceId id))
  | none => .change fun d => d

/-- Refuses triples of another resource than `id`. -/
def refuseStrayTriple (id : String) (ts : List Triple) : Attempt Database :=
  match ts.find? fun t => t.resourceId != id with
  | some stray => .fail (.persist (.strayTriple stray.resourceId id))
  | none => .change fun d => d

/-- Writes the chunks of a resource in place of those it has. -/
def writeChunks (id : String) (cs : List Chunk) : Attempt Database :=
  .all
    ([ refuseStrayChunk id cs,
       onTable "chunks" (.change fun d => { d with chunks := withoutOwner id d.chunks }) ] ++
      cs.map insertChunk)

/-- Writes the triples of a resource in place of those it has. -/
def writeTriples (id : String) (ts : List Triple) : Attempt Database :=
  .all
    ([ refuseStrayTriple id ts,
       onTable "triples" (.change fun d => { d with triples := withoutOwner id d.triples }) ] ++
      ts.map insertTriple)

/-! ### Writes -/

/-- Replaces the chunks of a resource. -/
def replaceChunks (id : String) (cs : List Chunk) : Attempt Database :=
  .atomically (writeChunks id cs)

/-- Replaces the triples of a resource. -/
def replaceTriples (id : String) (ts : List Triple) : Attempt Database :=
  .atomically (writeTriples id ts)

/-- Saves a file with its chunks and triples. -/
def saveFile (r : Resource) (cs : List Chunk) (ts : List Triple) : Attempt Database :=
  .atomically (.all [writeResource r, writeChunks r.id cs, writeTriples r.id ts])

/-- The store's writes. -/
def api : Api Database where
  saveResource := writeResource
  saveChunks := replaceChunks
  saveTriples := replaceTriples
  saveFile := saveFile
  markFailed := writeStatus

/-! ### Reading -/

/-- A reading of a table that has to exist. -/
def readTable {α : Type} (d : Database) (table : String) (read : Except Fault α) :
    Except Fault α :=
  if d.created then read else .error (.database (.noSuchTable table))

/-- The resource with an id. -/
def resource? (d : Database) (id : String) : Except Fault (Option Resource) :=
  d.readTable "resources" <|
    match d.resources.find? fun row => rowId row == .text id with
    | none => .ok none
    | some row => do return some (← (← ResourceRow.readCells row).decode)

/-- A cell as a text to order by. -/
def orderText (row : Row) (columns : List Column) (column : String) : String :=
  (row.textOf columns column).getD ""

/-- The resources of a repository by path. The query asks for no more than that; where paths are
equal, the id decides here. -/
def resourcesOf (d : Database) (root : String) : Except Fault (List Resource) :=
  d.readTable "resources" do
    let cs := ResourceRow.columns
    let rows := d.resources.filter fun row => row.cell cs "repository_root" == .text root
    let rows := rows.mergeSort fun a b =>
      let pa := orderText a cs "relative_path"
      let pb := orderText b cs "relative_path"
      decide (pa < pb) || (pa == pb && !decide (orderText b cs "id" < orderText a cs "id"))
    let raws ← rows.mapM ResourceRow.readCells
    raws.mapM (·.decode)

/-- The chunks of a resource in the order of the file. The query orders by `seq` alone, so it leaves
open how chunks with equal numbers are ordered; here the id decides between them. -/
def chunksFor (d : Database) (id : String) : Except Fault (List Chunk) :=
  d.readTable "chunks" do
    let cs := ChunkRow.columns
    let rows := (d.chunks.filter fun row => rowOwner row == .text id).mergeSort fun a b =>
      let sa := (a.cell cs "seq").order
      let sb := (b.cell cs "seq").order
      decide (sa < sb) || (sa == sb && !decide (orderText b cs "id" < orderText a cs "id"))
    rows.mapM ChunkRow.decode

/-- The triples of a resource by line, and in the order of their writing on one line. -/
def triplesFor (d : Database) (id : String) : Except Fault (List Triple) :=
  d.readTable "triples" do
    let cs := TripleRow.columns
    let rows := (d.triples.filter fun row => rowOwner row == .text id).mergeSort fun a b =>
      decide ((a.cell cs "line_number").order ≤ (b.cell cs "line_number").order)
    rows.mapM TripleRow.decode

/-- The triples with a symbol as their object or target, by file and line. The query leaves open how
triples on one line of a file are ordered; here the id decides between them. -/
def triplesReferencing (d : Database) (symbol : String) : Except Fault (List Triple) :=
  d.readTable "triples" do
    let cs := TripleRow.columns
    let hit (row : Row) : Bool :=
      row.cell cs "object" == .text symbol || row.cell cs "target_symbol" == .text symbol
    let rows := (d.triples.filter hit).mergeSort fun a b =>
      let fa := orderText a cs "source_file"
      let fb := orderText b cs "source_file"
      let la := (a.cell cs "line_number").order
      let lb := (b.cell cs "line_number").order
      decide (fa < fb) || (fa == fb && (decide (la < lb) || (la == lb &&
        !decide (orderText b cs "id" < orderText a cs "id"))))
    rows.mapM TripleRow.decode

/-- The numbers of resources, chunks and triples. -/
def counts (d : Database) : Except Fault (Nat × Nat × Nat) :=
  d.readTable "resources" (.ok (d.resources.length, d.chunks.length, d.triples.length))

/-! ### Writing a cell directly -/

/-- The columns of a table. -/
def columnsOf (table : String) : List Column :=
  match table with
  | "resources" => ResourceRow.columns
  | "chunks" => ChunkRow.columns
  | _ => TripleRow.columns

/-- The rows of a table. -/
def rowsOf (d : Database) (table : String) : List Row :=
  match table with
  | "resources" => d.resources
  | "chunks" => d.chunks
  | _ => d.triples

/-- The database with other rows in a table. -/
def withRows (d : Database) (table : String) (rows : List Row) : Database :=
  match table with
  | "resources" => { d with resources := rows }
  | "chunks" => { d with chunks := rows }
  | _ => { d with triples := rows }

/-- Every chunk and triple names a resource that has a row. -/
def ownersExist (d : Database) : Bool :=
  (d.chunks ++ d.triples).all fun row => d.hasResource (rowOwner row)

/-- No two rows have one id. -/
def distinctIds : List Row → Bool
  | [] => true
  | row :: rest => (rest.all fun r => rowId r != rowId row) && distinctIds rest

/-- Overwrites one cell of the row with an id, and tells how many rows that were. A write that would
give two rows one id, or leave a row without its resource, changes nothing. -/
def overwrite (table column id : String) (value : Cell) (d : Database) :
    Database × Except Fault Nat :=
  let columns := columnsOf table
  let hit (row : Row) : Bool := rowId row == .text id
  let rows := (d.rowsOf table).map fun row => if hit row then row.set columns column value else row
  let changed := d.withRows table rows
  -- Ids are looked at before owners, as the database checks foreign keys at the end of a statement.
  if !distinctIds rows then (d, .error (.database (.duplicateId table)))
  else if changed.ownersExist then (changed, .ok ((d.rowsOf table).countP hit))
  else (d, .error (.database .foreignKey))

end Database

end CodeIndex.Store
