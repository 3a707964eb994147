import CodeIndex.Time.Timestamp
/-!
# Tasks

A task is one request to ingest a source. Its status only moves forward: from pending to processing
to completed or failed, or from pending to failed at once.
-/

namespace CodeIndex

/-- Where a task stands. -/
inductive TaskStatus where
  | pending
  | processing
  | completed
  | failed
  deriving DecidableEq, Repr, Inhabited

namespace TaskStatus

/-- The name of a status in records. -/
def name : TaskStatus → String
  | pending => "PENDING"
  | processing => "PROCESSING"
  | completed => "COMPLETED"
  | failed => "FAILED"

/-- Every status. -/
def all : List TaskStatus := [pending, processing, completed, failed]

/-- The status with a name. -/
def ofName? (s : String) : Option TaskStatus :=
  all.find? fun c => c.name == s

/-- The task has ended. -/
def isTerminal : TaskStatus → Bool
  | completed | failed => true
  | pending | processing => false

/-- A task may move from one status to the other. -/
def canMoveTo : TaskStatus → TaskStatus → Bool
  | pending, processing => true
  | pending, failed => true
  | processing, completed => true
  | processing, failed => true
  | _, _ => false

/-- An ended task never moves again. -/
theorem canMoveTo_of_isTerminal {s t : TaskStatus} (h : s.isTerminal = true) :
    s.canMoveTo t = false := by
  cases s <;> cases t <;> first | rfl | cases h

end TaskStatus

/-- One request to ingest a source, and its progress. -/
structure Task where
  id : String
  source : String
  branch : Option String
  status : TaskStatus
  filesProcessed : Nat
  totalFiles : Nat
  filesFailed : Nat
  chunksEmitted : Nat
  triplesEmitted : Nat
  currentFile : Option String
  error : Option String
  /-- The failed task that this one repeats. -/
  retryOf : Option String
  submittedAt : Time.Timestamp
  startedAt : Option Time.Timestamp
  finishedAt : Option Time.Timestamp
  deriving DecidableEq, Repr

namespace Task

/-- A task that was just submitted. -/
def submitted (id source : String) (branch retryOf : Option String) (now : Time.Timestamp) :
    Task where
  id := id
  source := source
  branch := branch
  status := .pending
  filesProcessed := 0
  totalFiles := 0
  filesFailed := 0
  chunksEmitted := 0
  triplesEmitted := 0
  currentFile := none
  error := none
  retryOf := retryOf
  submittedAt := now
  startedAt := none
  finishedAt := none

/-- The task after a move to another status, unless it may not move there. The times follow the
status, an ended task works on no file, and an error that is given replaces the one before. -/
def moveTo? (t : Task) (next : TaskStatus) (error : Option String) (now : Time.Timestamp) :
    Option Task :=
  if t.status.canMoveTo next then
    some { t with
      status := next
      startedAt := if next = .processing then some now else t.startedAt
      finishedAt := if next.isTerminal then some now else t.finishedAt
      currentFile := if next.isTerminal then none else t.currentFile
      error := error.or t.error }
  else none

/-- The task failed before it started, unless it has started or ended. -/
def failPending? (t : Task) (error : String) (now : Time.Timestamp) : Option Task :=
  if t.status = .pending then
    some { t with status := .failed, finishedAt := some now, error := some error }
  else none

/-- The task begins with a file. -/
def beginFile (path : String) (t : Task) : Task :=
  { t with currentFile := some path }

/-- The task knows how many files there are. -/
def expectFiles (count : Nat) (t : Task) : Task :=
  { t with totalFiles := count }

/-- One more file was taken in, with its numbers of chunks and triples. -/
def countIngested (chunks triples : Nat) (t : Task) : Task :=
  { t with
    filesProcessed := t.filesProcessed + 1
    chunksEmitted := t.chunksEmitted + chunks
    triplesEmitted := t.triplesEmitted + triples }

/-- One more file failed. -/
def countFailed (t : Task) : Task :=
  { t with filesProcessed := t.filesProcessed + 1, filesFailed := t.filesFailed + 1 }

end Task

end CodeIndex
