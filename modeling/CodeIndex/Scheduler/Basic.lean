import CodeIndex.Config.Basic
import CodeIndex.Ingest.Processor
import CodeIndex.Task.Registry
/-!
# The state of the scheduler

Tasks are submitted to a queue. A dispatcher takes them from it in order and starts a runner for
each as long as permits are free. A runner lists the files of its source and feeds them, batch by
batch, to its workers, which report back to it.

All of these work at the same time. Each is described by where it stands, that is by what it is
about to do next (`Call`, `Dispatcher`, `Runner.Stage`, `Worker.Stage`), and a state holds all of
them beside what they share (`Shared`). Whatever one of them does without being interrupted is one
move.
-/

namespace CodeIndex.Scheduler

/-! ### What does not change -/

/-- What a scheduler is set up with. -/
structure Setting (σ : Type) where
  limits : Config.Pipeline
  processor : Ingest.Processor σ
  /-- The files of a source, at a branch if one is asked for. -/
  enumerate : String → Option String → Except Fault Source.Snapshot
  /-- The instant that records carry. -/
  now : Time.Timestamp

/-! ### What is shared -/

/-- A task that waits for its turn. -/
structure Job where
  id : String
  source : String
  branch : Option String
  deriving DecidableEq, Repr

/-- What everything that works has access to. -/
structure Shared (σ : Type) where
  registry : TaskRegistry
  /-- The jobs that were sent to the dispatcher, the earliest first. -/
  queue : List Job
  /-- The queue takes no more jobs. -/
  queueClosed : Bool
  /-- Submissions are refused. -/
  shuttingDown : Bool
  /-- The dispatcher was told to stop and has not noticed yet. -/
  stopSignal : Bool
  /-- The handle of the dispatcher was taken: only one shutdown waits for the dispatcher. -/
  dispatcherTaken : Bool
  /-- The tasks that may still be started. -/
  permits : Nat
  desk : Ingest.Desk σ
  /-- Sources whose files cannot be listed yet. -/
  held : List String
  /-- How many ids were given out. -/
  issued : Nat

/-- The id with a number. -/
def idOf (n : Nat) : String := "T" ++ Number.natText n

/-! ### Ends of tasks -/

/-- The error of a task that was cancelled. -/
def cancelled : String := "cancelled"

/-- The error of a task that was still waiting when the scheduler shut down. -/
def shutDown : String := "orchestrator shut down before the task started"

/-- What is left to do at the end of a task. -/
inductive Ending where
  /-- Move the record to its last status. -/
  | settle (id : String) (error : Option String)
  /-- Read the record that is announced. -/
  | lookUp (id : String)
  | announce (task : Task)
  /-- Let go of old records. -/
  | evict
  deriving DecidableEq, Repr

/-! ### Calls -/

/-- What a caller asks for. -/
inductive Request where
  | submit (source : String) (branch : Option String)
  | retry (id : String)
  | cancel (id : String)
  | forget (id : String)
  /-- Wait until a task has ended. -/
  | wait (id : String)
  | shutdown
  deriving DecidableEq, Repr

/-- What a caller is told. -/
inductive Reply where
  | nothing
  | id (id : String)
  | task (task : Task)
  | fault (fault : Fault)
  deriving DecidableEq, Repr

/-- What a call in progress does next. -/
inductive Call where
  /-- Read the task that is to be retried. -/
  | readFailed (id : String)
  /-- Check the source and whether submissions are taken. -/
  | check (source : String) (branch retryOf : Option String)
  /-- Count the pending tasks. -/
  | count (source : String) (branch retryOf : Option String)
  | insert (source : String) (branch retryOf : Option String)
  | send (job : Job)
  /-- End a task that could not be sent. -/
  | refuse (ending : Ending)
  | requestCancel (id : String)
  | failPending (id : String) (seen : Task)
  /-- Announce a task that was cancelled before it started. -/
  | announceCancelled (ending : Ending) (id : String) (seen : Task)
  /-- Read the cancelled task for the answer. -/
  | reread (id : String) (seen : Task)
  | forget (id : String)
  /-- Find the task that is waited for. -/
  | follow (id : String)
  | awaitEnd (id : String)
  | refuseFurther
  | signalStop
  /-- Take the handle of the dispatcher, if no other shutdown has it. -/
  | takeDispatcher
  | awaitDispatcher
  | done (reply : Reply)
  deriving DecidableEq, Repr

/-- The first thing that a request does. -/
def Request.call : Request → Call
  | submit source branch => .check source branch none
  | retry id => .readFailed id
  | cancel id => .requestCancel id
  | forget id => .forget id
  | wait id => .follow id
  | shutdown => .refuseFurther

/-! ### The dispatcher -/

/-- What the dispatcher does next. -/
inductive Dispatcher where
  /-- Notice the signal to stop, or take a job from the queue. -/
  | select
  /-- Check whether the job was cancelled. -/
  | received (job : Job)
  /-- Notice the signal to stop, or take a permit. -/
  | acquire (job : Job)
  /-- Check again whether the job was cancelled. -/
  | granted (job : Job)
  /-- Check whether submissions are refused. -/
  | admitted (job : Job)
  | spawn (job : Job)
  /-- Give a permit back and end a job. -/
  | giveBack (job : Job) (error : String)
  /-- End a job, and then stop or go on. -/
  | finish (ending : Ending) (stopping : Bool)
  | close
  /-- Take a job that was left in the queue. -/
  | drain
  | finishDrained (ending : Ending)
  | awaitRunners
  | ended
  deriving DecidableEq, Repr

/-! ### Runners and workers -/

/-- What a worker tells its runner. -/
inductive Report where
  | started (path : String)
  | finished (outcome : Ingest.Outcome)
  deriving DecidableEq, Repr

/-- What a worker does next. -/
inductive Worker.Stage where
  /-- Take a file. -/
  | idle
  /-- Check whether the task was cancelled. -/
  | check (file : Source.File)
  | begin (file : Source.File)
  | process (file : Source.File)
  | report (outcome : Ingest.Outcome)
  | ended

/-- A worker and the parsers it has made. -/
structure Worker where
  stage : Worker.Stage
  parsers : Ingest.ParserCache

/-- A worker that has done nothing yet. -/
def Worker.fresh : Worker := ⟨.idle, []⟩

/-- What a runner does next. -/
inductive Runner.Stage where
  /-- Move the record to processing. -/
  | start
  | enumerate
  /-- Record the number of files and start the workers. -/
  | expect (snapshot : Source.Snapshot)
  /-- Check whether the task was cancelled before the next batch. -/
  | nextBatch (later : List (List Source.File))
  /-- Feed the files of a batch. -/
  | feed (files : List Source.File) (sent : Nat) (later : List (List Source.File))
  /-- Take a report; so many files of the batch have not been reported finished. -/
  | await (remaining : Nat) (later : List (List Source.File))
  | noteFile (path : String) (remaining : Nat) (later : List (List Source.File))
  | record (outcome : Ingest.Outcome) (remaining : Nat) (later : List (List Source.File))
  | closeFiles
  | awaitWorkers
  /-- Check whether the task was cancelled at the end. -/
  | check
  | finish (ending : Ending)
  /-- Give the permit back. -/
  | giveBack
  | ended

/-- A runner, with the channels between it and its workers. -/
structure Runner where
  job : Job
  stage : Runner.Stage
  /-- What the files have in common. -/
  context : Ingest.Context
  /-- Files that were fed and not taken. -/
  files : List Source.File
  /-- No more files will be fed. -/
  filesClosed : Bool
  /-- Reports that were sent and not taken. -/
  reports : List Report
  workers : List Worker

/-- A runner that has done nothing yet. -/
def Runner.ofJob (job : Job) (now : Time.Timestamp) : Runner where
  job := job
  stage := .start
  context := ⟨job.id, job.source, none, job.branch, now⟩
  files := []
  filesClosed := false
  reports := []
  workers := []

/-! ### States -/

/-- Everything about a scheduler that changes. -/
structure State (σ : Type) where
  shared : Shared σ
  /-- All calls that were made, the earliest first. -/
  calls : List Call
  dispatcher : Dispatcher
  /-- All runners that were started, the earliest first. -/
  runners : List Runner

/-- A scheduler that nobody has called yet, with some sources held back. -/
def State.start {σ : Type} (limits : Config.Pipeline) (store : σ) (held : List String) :
    State σ where
  shared :=
    { registry := .empty
      queue := []
      queueClosed := false
      shuttingDown := false
      stopSignal := false
      dispatcherTaken := false
      permits := max limits.maxConcurrentTasks 1
      desk := ⟨store, []⟩
      held := held
      issued := 0 }
  calls := []
  dispatcher := .select
  runners := []

end CodeIndex.Scheduler
