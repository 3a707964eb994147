import CodeIndex.Store.Database
/-!
# Databases as JSON

The JSON form of a database: its tables by name, each a list of rows, each row a list of cells.
-/

namespace CodeIndex.Store

/-- A cell. -/
def Cell.toJson : Cell → Json
  | .text s => .str s
  | .integer n => .int n
  | .real x => .real x.text
  | .null => .null

/-- The rows of a table. -/
def rowsToJson (rows : List Row) : Json :=
  .arr (rows.map fun row => .arr (row.map Cell.toJson))

/-- All tables of a database. -/
def Database.toJson (d : Database) : Json :=
  .obj
    [ ("resources", rowsToJson d.resources),
      ("chunks", rowsToJson d.chunks),
      ("triples", rowsToJson d.triples) ]

end CodeIndex.Store
