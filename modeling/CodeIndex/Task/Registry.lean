import CodeIndex.Fault
import CodeIndex.Keyed
import CodeIndex.Task.Basic
/-!
# The task registry

The records of all tasks and the order in which they were submitted. A record carries the task and
whether its cancellation was requested. It stays with those who hold it, so that they can still see
how the task ended, but only a record that is retained can be found, listed and changed.

The number of retained records is bounded by evicting the tasks that ended, the oldest first.
-/

namespace CodeIndex

open CodeIndex.Keyed

/-- What is known about one task. -/
structure TaskRecord where
  task : Task
  /-- Its cancellation was requested. -/
  cancelled : Bool
  /-- The registry still lists the task. -/
  retained : Bool
  deriving DecidableEq, Repr

/-- The id of a record's task. -/
def TaskRecord.id (r : TaskRecord) : String := r.task.id

/-- The tasks that were submitted. -/
structure TaskRegistry where
  /-- The latest record of every id. -/
  records : List TaskRecord
  /-- The ids in the order in which they were submitted, without those that were let go. -/
  order : List String
  deriving DecidableEq, Repr

namespace TaskRegistry

/-- A registry without any task. -/
def empty : TaskRegistry := ⟨[], []⟩

/-! ### Looking up -/

/-- The latest record of an id, retained or not. -/
def record? (r : TaskRegistry) (id : String) : Option TaskRecord :=
  lookUp TaskRecord.id id r.records

/-- The retained task with an id. -/
def get? (r : TaskRegistry) (id : String) : Option Task :=
  ((r.record? id).filter (·.retained)).map (·.task)

/-- The retained task with an id, which has to be there. -/
def get (r : TaskRegistry) (id : String) : Except Fault Task :=
  match r.get? id with
  | some t => .ok t
  | none => .error (.taskNotFound id)

/-- Whether the cancellation of a task was requested; `none` when there never was such a task. -/
def isCancelled? (r : TaskRegistry) (id : String) : Option Bool :=
  (r.record? id).map (·.cancelled)

/-- The cancellation of a task was requested. -/
def isCancelled (r : TaskRegistry) (id : String) : Bool :=
  (r.isCancelled? id).getD false

/-- How a task stood when it was last seen, even if the registry has let it go since. -/
def lastSeen? (r : TaskRegistry) (id : String) : Option Task :=
  (r.record? id).map (·.task)

/-- The retained tasks in the order of their submission. -/
def list (r : TaskRegistry) : List Task :=
  r.order.filterMap r.get?

/-- The number of retained tasks. -/
def size (r : TaskRegistry) : Nat :=
  r.records.countP (·.retained)

/-- The number of retained tasks with a status. -/
def count (r : TaskRegistry) (status : TaskStatus) : Nat :=
  r.records.countP fun record => record.retained && record.task.status == status

/-! ### Changing -/

/-- Adds a task; a task with the same id is forgotten. -/
def insert (r : TaskRegistry) (t : Task) : TaskRegistry :=
  { records := put TaskRecord.id ⟨t, false, true⟩ r.records
    order := r.order ++ [t.id] }

/-- Changes the record of a retained task. -/
def modify (r : TaskRegistry) (id : String) (f : TaskRecord → TaskRecord) : TaskRegistry :=
  { r with
    records := r.records.map fun record =>
      if record.id = id && record.retained then f record else record }

/-- Changes a retained task. -/
def update (r : TaskRegistry) (id : String) (f : Task → Task) : TaskRegistry :=
  r.modify id fun record => { record with task := f record.task }

/-- Changes a retained task if `f` gives it a new form, and says whether it did. -/
def updateIf (r : TaskRegistry) (id : String) (f : Task → Option Task) : TaskRegistry × Bool :=
  match (r.get? id).bind f with
  | some t => (r.update id fun _ => t, true)
  | none => (r, false)

/-- Moves a task to another status, if it may move there, and says whether it did. -/
def transition (r : TaskRegistry) (id : String) (next : TaskStatus) (error : Option String)
    (now : Time.Timestamp) : TaskRegistry × Bool :=
  r.updateIf id fun t => t.moveTo? next error now

/-- Fails a task that has not started, and says whether it did. -/
def failPending (r : TaskRegistry) (id error : String) (now : Time.Timestamp) :
    TaskRegistry × Bool :=
  r.updateIf id fun t => t.failPending? error now

/-- Requests the cancellation of a task that has not ended. The answer is the task as it stands. -/
def requestCancel (r : TaskRegistry) (id : String) : Except Fault (TaskRegistry × Task) :=
  match r.get? id with
  | none => .error (.taskNotFound id)
  | some t =>
    if t.status.isTerminal then .error (.taskState (.cannotCancel id t.status))
    else .ok (r.modify id fun record => { record with cancelled := true }, t)

/-! ### Letting go -/

/-- The registry no longer finds a task. -/
def release (r : TaskRegistry) (id : String) : TaskRegistry :=
  r.modify id fun record => { record with retained := false }

/-- Lets go of one task, which has to have ended. -/
def remove (r : TaskRegistry) (id : String) : Except Fault (TaskRegistry × Task) :=
  match r.get? id with
  | none => .error (.taskNotFound id)
  | some t =>
    if t.status.isTerminal then
      .ok ({ r.release id with order := r.order.filter (· != id) }, t)
    else .error (.taskState (.cannotForget id t.status))

/-- No task with the id is still to end. -/
def hasEnded (r : TaskRegistry) (id : String) : Bool :=
  (r.get? id).all (·.status.isTerminal)

/-- Lets go of up to `excess` ended tasks of `order`, the first ones first. The answer has what is
left of the order, and how many were let go. -/
def evictFrom (r : TaskRegistry) (excess : Nat) : List String → TaskRegistry × List String × Nat
  | [] => (r, [], 0)
  | id :: rest =>
    if excess = 0 then (r, id :: rest, 0)
    else if r.hasEnded id then
      let (r, kept, evicted) := (r.release id).evictFrom (excess - 1) rest
      (r, kept, evicted + 1)
    else
      let (r, kept, evicted) := r.evictFrom excess rest
      (r, id :: kept, evicted)

/-- Lets go of ended tasks, the oldest first, until no more than `limit` are left or none has ended,
and says how many it let go. -/
def evict (r : TaskRegistry) (limit : Nat) : TaskRegistry × Nat :=
  let (r', kept, evicted) := r.evictFrom (r.size - limit) r.order
  ({ r' with order := kept }, evicted)

end TaskRegistry

end CodeIndex
