import CodeIndex.Number.Decimal
import CodeIndex.Task.Basic
import CodeIndex.Time.Timestamp
/-!
# Faults

Everything that can go wrong, by cause. A fault is data; its wording is in `Fault.message` and the
exit status it leads to in `Fault.exitCode`, and nothing else decides either.

Parsers, stores and sources are supplied by callers and report in their own words. Such words are
held by the constructors named `reported`.
-/

namespace CodeIndex

/-! ### Causes -/

/-- What the file system refuses. -/
inductive IoFault where
  | notFound
  | alreadyExists
  | notADirectory
  | isADirectory
  | tooManyLinks
  | reported (text : String)
  deriving DecidableEq, Repr

/-- The wording of a refusal of the file system. -/
def IoFault.message : IoFault → String
  | notFound => "No such file or directory (os error 2)"
  | alreadyExists => "File exists (os error 17)"
  | notADirectory => "Not a directory (os error 20)"
  | isADirectory => "Is a directory (os error 21)"
  | tooManyLinks => "Too many levels of symbolic links (os error 40)"
  | reported text => text

/-- What the database engine refuses. -/
inductive DatabaseFault where
  /-- No database can stand at the path. -/
  | cannotOpen (path : String)
  /-- The tables were never created. -/
  | noSuchTable (table : String)
  /-- A row names a resource that has no row. -/
  | foreignKey
  /-- Two rows of a table would have one id. -/
  | duplicateId (table : String)
  /-- A cell does not hold what its column is read as. -/
  | columnType (found : String) (index : Nat) (column : String)
  /-- A cell holds a text that names nothing. -/
  | unknownName (index : Nat) (what name : String)
  | reported (text : String)
  deriving DecidableEq, Repr

/-- The wording of a refusal of the database engine. -/
def DatabaseFault.message : DatabaseFault → String
  | cannotOpen path => "unable to open database file: " ++ path
  | noSuchTable table => "no such table: " ++ table
  | foreignKey => "FOREIGN KEY constraint failed"
  | duplicateId table => "UNIQUE constraint failed: " ++ table ++ ".id"
  | columnType found index column =>
    "Invalid column type " ++ found ++ " at index: " ++ Number.natText index ++ ", name: " ++ column
  | unknownName index what name =>
    "Conversion error from type Text at index: " ++ Number.natText index ++ ", unknown " ++ what ++
      " '" ++ name ++ "'"
  | reported text => text

/-- What a store refuses. -/
inductive PersistFault where
  /-- A chunk is saved under another resource than its own. -/
  | strayChunk (chunk owner expected : String)
  /-- A triple is saved under another resource than its own. -/
  | strayTriple (owner expected : String)
  | badTimestamp (text : String) (cause : Time.Timestamp.ReadFault)
  | unknownClassification (name : String)
  | unknownStatus (name : String)
  | reported (text : String)
  deriving DecidableEq, Repr

/-- The wording of a refusal of a store. -/
def PersistFault.message : PersistFault → String
  | strayChunk chunk owner expected =>
    "chunk " ++ chunk ++ " belongs to resource " ++ owner ++ ", not " ++ expected
  | strayTriple owner expected => "triple from resource " ++ owner ++ " saved under " ++ expected
  | badTimestamp text cause => "bad timestamp '" ++ text ++ "': " ++ cause.message
  | unknownClassification name => "unknown classification '" ++ name ++ "'"
  | unknownStatus name => "unknown resource status '" ++ name ++ "'"
  | reported text => text

/-- Why relationships could not be extracted to the end. -/
inductive ExtractionFault where
  /-- The text of a node does not lie inside the source. -/
  | outsideSource (kind : String) (line : Nat)
  | reported (text : String)
  deriving DecidableEq, Repr

/-- The wording of an extraction fault. -/
def ExtractionFault.message : ExtractionFault → String
  | outsideSource kind line =>
    kind ++ " node at line " ++ Number.natText line ++ " lies outside the source text"
  | reported text => text

/-- Why the files of a source cannot be listed. -/
inductive SourceFault where
  | cannotAccess (source : String) (cause : IoFault)
  | notDirectory (path : String)
  | noProvider (source : String)
  | cannotEnumerate (path reason : String)
  | reported (text : String)
  deriving DecidableEq, Repr

/-- The wording of a source fault. -/
def SourceFault.message : SourceFault → String
  | cannotAccess source cause => "Cannot access '" ++ source ++ "': " ++ cause.message
  | notDirectory path => "'" ++ path ++ "' is not a directory"
  | noProvider source => "No provider accepts '" ++ source ++ "'"
  | cannotEnumerate path reason => "Enumerating '" ++ path ++ "': " ++ reason
  | reported text => text

/-- Why an operation does not fit the state of a task or of the scheduler. -/
inductive StateFault where
  | cannotCancel (id : String) (status : TaskStatus)
  | cannotForget (id : String) (status : TaskStatus)
  | cannotRetry (id : String) (status : TaskStatus)
  | shuttingDown
  | reported (text : String)
  deriving DecidableEq, Repr

/-- The wording of a state fault. -/
def StateFault.message : StateFault → String
  | cannotCancel id status => "cannot cancel task " ++ id ++ " in state " ++ status.name
  | cannotForget id status => "cannot forget task " ++ id ++ " in state " ++ status.name
  | cannotRetry id status =>
    "only FAILED tasks can be retried; task " ++ id ++ " is " ++ status.name
  | shuttingDown => "orchestrator is shutting down"
  | reported text => text

/-- Why a configuration is refused although it can be read. -/
inductive ConfigFault where
  /-- A limit is zero. -/
  | notPositive (limit : String)
  | reported (text : String)
  deriving DecidableEq, Repr

/-- The wording of a configuration fault. -/
def ConfigFault.message : ConfigFault → String
  | notPositive limit => limit ++ " must be greater than zero"
  | reported text => text

/-- Why an input is refused. -/
inductive InputFault where
  | emptySource
  /-- Nobody receives events any more. -/
  | receiverDropped (event : String)
  | reported (text : String)
  deriving DecidableEq, Repr

/-- The wording of an input fault. -/
def InputFault.message : InputFault → String
  | emptySource => "source reference is empty"
  | receiverDropped event => "event receiver dropped before '" ++ event ++ "'"
  | reported text => text

/-- The wording of what is wrong with a pattern. -/
def patternProblem (position : Nat) (text : String) : String :=
  "Pattern syntax error near position " ++ Number.natText position ++ ": " ++ text

/-! ### Faults -/

/-- Everything that can go wrong. -/
inductive Fault where
  | database (cause : DatabaseFault)
  | io (cause : IoFault)
  | walk (text : String)
  | parse (text : String)
  | parseTimeout (milliseconds : Nat)
  | extraction (cause : ExtractionFault)
  | source (cause : SourceFault)
  | clone (url text : String)
  | persist (cause : PersistFault)
  | capacity (pending max : Nat)
  | taskNotFound (id : String)
  | taskState (cause : StateFault)
  | config (cause : ConfigFault)
  | serialization (text : String)
  | yaml (text : String)
  | globPattern (position : Nat) (text : String)
  | invalidInput (cause : InputFault)
  deriving DecidableEq, Repr

namespace Fault

/-- The wording of a fault. -/
def message : Fault → String
  | database cause => "Database error: " ++ cause.message
  | io cause => "IO error: " ++ cause.message
  | walk text => "Walk directory error: " ++ text
  | parse text => "Parse error: " ++ text
  | parseTimeout milliseconds => "Parse timed out after " ++ Number.natText milliseconds ++ " ms"
  | extraction cause => "Extraction error: " ++ cause.message
  | source cause => "Source error: " ++ cause.message
  | clone url text => "Clone failed for " ++ url ++ ": " ++ text
  | persist cause => "Persistence error: " ++ cause.message
  | capacity pending max =>
    "Ingestion capacity exhausted: " ++ Number.natText pending ++ " tasks already queued (max " ++
      Number.natText max ++ ")"
  | taskNotFound id => "Task not found: " ++ id
  | taskState cause => "Invalid task state: " ++ cause.message
  | config cause => "Configuration error: " ++ cause.message
  | serialization text => "Serialization error: " ++ text
  | yaml text => "YAML error: " ++ text
  | globPattern position text => "Glob pattern error: " ++ patternProblem position text
  | invalidInput cause => "Invalid input: " ++ cause.message

/-- What lies behind a fault that was passed on, the nearest first. -/
def causes : Fault → List String
  | database (.cannotOpen path) =>
    [(DatabaseFault.cannotOpen path).message, "Error code 14: Unable to open the database file"]
  | database cause => [cause.message]
  | io cause => [cause.message]
  | walk text | serialization text | yaml text => [text]
  | globPattern position text => [patternProblem position text]
  | _ => []

/-- The exit status of a program that ends with the fault. -/
def exitCode : Fault → Nat
  | taskNotFound _ => 2
  | invalidInput _ | config _ | globPattern _ _ => 3
  | capacity _ _ => 4
  | source _ | clone _ _ => 5
  | _ => 1

end Fault

end CodeIndex
