import CodeIndex.Fault
import CodeIndex.Report.Records
/-!
# Events

What the pipeline tells those who follow it: that a file was taken in or failed, and that a task
ended. Every event has a name and a payload. Nothing depends on whether anybody receives it.
-/

namespace CodeIndex

/-- Something that happened. -/
inductive Event where
  | fileIngested (taskId path resourceId : String) (classification : Classification)
      (language : String) (chunks triples : Nat) (fallback : Bool)
  | fileFailed (taskId path : String) (fault : Fault)
  | taskCompleted (task : Task)
  | taskFailed (task : Task)
  deriving DecidableEq, Repr

namespace Event

/-- The name of an event. -/
def name : Event → String
  | fileIngested .. => "file.ingested"
  | fileFailed .. => "file.failed"
  | taskCompleted _ => "task.completed"
  | taskFailed _ => "task.failed"

/-- The task that an event belongs to. -/
def taskId : Event → String
  | fileIngested id .. => id
  | fileFailed id .. => id
  | taskCompleted task => task.id
  | taskFailed task => task.id

/-- The path of the file that an event is about, if it is about one. -/
def path? : Event → Option String
  | fileIngested _ path .. => some path
  | fileFailed _ path _ => some path
  | taskCompleted _ | taskFailed _ => none

/-- What an event says. -/
def payload : Event → Json
  | fileIngested taskId path resourceId classification language chunks triples fallback =>
    .obj
      [ ("task_id", .str taskId),
        ("path", .str path),
        ("resource_id", .str resourceId),
        ("classification", .str classification.name),
        ("language", .str language),
        ("chunks", .nat chunks),
        ("triples", .nat triples),
        ("fallback", .bool fallback) ]
  | fileFailed taskId path fault =>
    .obj [("task_id", .str taskId), ("path", .str path), ("error", .str fault.message)]
  | taskCompleted task | taskFailed task => task.toJson

/-- The event that announces how a task ended. -/
def ofEnded (task : Task) : Event :=
  if task.status = .completed then taskCompleted task else taskFailed task

end Event

end CodeIndex
