import CodeIndex.Groups
import CodeIndex.Scheduler.Basic
/-!
# Moves of the scheduler

What each part does next, one uninterrupted action at a time. A part that has to wait has no move.
`State.step?` is the move of one part; `Reachable` are the states that any sequence of moves and
requests leads to, whatever the order in which the parts take their turns.
-/

namespace CodeIndex.Scheduler

variable {σ : Type}

/-! ### Shared actions -/

namespace Shared

/-- The shared state with another registry. -/
def withRegistry (s : Shared σ) (r : TaskRegistry) : Shared σ := { s with registry := r }

/-- The shared state with one task changed. -/
def updateTask (s : Shared σ) (id : String) (f : Task → Task) : Shared σ :=
  s.withRegistry (s.registry.update id f)

/-- The shared state with one more event. -/
def emit (s : Shared σ) (e : Event) : Shared σ := { s with desk := s.desk.emit e }

end Shared

/-- One action at the end of a task, and what is left to do then. -/
def Ending.step (S : Setting σ) (s : Shared σ) : Ending → Shared σ × Option Ending
  | settle id error =>
    let next : TaskStatus := if error.isSome then .failed else .completed
    let (r, moved) := s.registry.transition id next error S.now
    -- A task that has ended already stays as it is, and nothing is announced.
    (s.withRegistry r, if moved then some (.lookUp id) else none)
  | lookUp id =>
    match s.registry.get? id with
    | some task => (s, some (.announce task))
    | none => (s, some .evict)
  | announce task => (s.emit (.ofEnded task), some .evict)
  | evict => (s.withRegistry (s.registry.evict S.limits.maxRetainedTasks).1, none)

/-! ### Calls -/

/-- The reply of a call that fails. -/
def Call.fail (fault : Fault) : Call := .done (.fault fault)

/-- The move of a call. -/
def Call.step? (S : Setting σ) (dispatcher : Dispatcher) (s : Shared σ) :
    Call → Option (Shared σ × Call)
  | readFailed id =>
    match s.registry.get? id with
    | none => some (s, .fail (.taskNotFound id))
    | some task =>
      if task.status = .failed then some (s, .check task.source task.branch (some task.id))
      else some (s, .fail (.taskState (.cannotRetry id task.status)))
  | check source branch retryOf =>
    if Text.isBlank source then some (s, .fail (.invalidInput .emptySource))
    else if s.shuttingDown then some (s, .fail (.taskState .shuttingDown))
    else some (s, .count source branch retryOf)
  | count source branch retryOf =>
    let pending := s.registry.count .pending
    if S.limits.maxQueueDepth ≤ pending then
      some (s, .fail (.capacity pending S.limits.maxQueueDepth))
    else some (s, .insert source branch retryOf)
  | insert source branch retryOf =>
    let id := idOf s.issued
    let s := { s with
      registry := s.registry.insert (.submitted id source branch retryOf S.now)
      issued := s.issued + 1 }
    some (s, .send ⟨id, source, branch⟩)
  | send job =>
    if s.queueClosed then some (s, .refuse (.settle job.id (some shutDown)))
    else some ({ s with queue := s.queue ++ [job] }, .done (.id job.id))
  | refuse ending =>
    match ending.step S s with
    | (s, some ending) => some (s, .refuse ending)
    | (s, none) => some (s, .fail (.taskState .shuttingDown))
  | requestCancel id =>
    match s.registry.requestCancel id with
    | .ok (r, seen) => some (s.withRegistry r, .failPending id seen)
    | .error fault => some (s, .fail fault)
  | failPending id seen =>
    let (r, failed) := s.registry.failPending id cancelled S.now
    some (s.withRegistry r,
      if failed then .announceCancelled (.lookUp id) id seen else .reread id seen)
  | announceCancelled ending id seen =>
    match ending.step S s with
    | (s, some ending) => some (s, .announceCancelled ending id seen)
    | (s, none) => some (s, .reread id seen)
  | reread id seen => some (s, .done (.task ((s.registry.get? id).getD seen)))
  | forget id =>
    match s.registry.remove id with
    | .ok (r, task) => some (s.withRegistry r, .done (.task task))
    | .error fault => some (s, .fail fault)
  | follow id =>
    match s.registry.get id with
    | .ok _ => some (s, .awaitEnd id)
    | .error fault => some (s, .fail fault)
  | awaitEnd id =>
    match s.registry.lastSeen? id with
    | some task => if task.status.isTerminal then some (s, .done (.task task)) else none
    | none => none
  | refuseFurther => some ({ s with shuttingDown := true }, .signalStop)
  | signalStop => some ({ s with stopSignal := true }, .takeDispatcher)
  | takeDispatcher =>
    if s.dispatcherTaken then some (s, .done .nothing)
    else some ({ s with dispatcherTaken := true }, .awaitDispatcher)
  | awaitDispatcher => if dispatcher = .ended then some (s, .done .nothing) else none
  | done _ => none

/-! ### The dispatcher -/

/-- The runner has ended. -/
def Runner.hasEnded (r : Runner) : Bool :=
  match r.stage with
  | .ended => true
  | _ => false

/-- The move of the dispatcher, with the runner that it starts. -/
def Dispatcher.step? (S : Setting σ) (runners : List Runner) (s : Shared σ) :
    Dispatcher → Option (Shared σ × Dispatcher × List Runner)
  | select =>
    if s.stopSignal then some ({ s with stopSignal := false }, .close, [])
    else
      match s.queue with
      | [] => none
      | job :: queue => some ({ s with queue := queue }, .received job, [])
  | received job =>
    if s.registry.isCancelled job.id then
      some (s, .finish (.settle job.id (some cancelled)) false, [])
    else some (s, .acquire job, [])
  | acquire job =>
    if s.stopSignal then
      some ({ s with stopSignal := false }, .finish (.settle job.id (some shutDown)) true, [])
    else
      match s.permits with
      | 0 => none
      | permits + 1 => some ({ s with permits := permits }, .granted job, [])
  | granted job =>
    if s.registry.isCancelled job.id then some (s, .giveBack job cancelled, [])
    else some (s, .admitted job, [])
  | admitted job =>
    if s.shuttingDown then some (s, .giveBack job shutDown, []) else some (s, .spawn job, [])
  | spawn job => some (s, .select, [.ofJob job S.now])
  | giveBack job error =>
    some ({ s with permits := s.permits + 1 }, .finish (.settle job.id (some error)) false, [])
  | finish ending stopping =>
    match ending.step S s with
    | (s, some ending) => some (s, .finish ending stopping, [])
    | (s, none) => some (s, if stopping then .close else .select, [])
  | close => some ({ s with queueClosed := true }, .drain, [])
  | drain =>
    match s.queue with
    | [] => some (s, .awaitRunners, [])
    | job :: queue =>
      some ({ s with queue := queue }, .finishDrained (.settle job.id (some shutDown)), [])
  | finishDrained ending =>
    match ending.step S s with
    | (s, some ending) => some (s, .finishDrained ending, [])
    | (s, none) => some (s, .drain, [])
  | awaitRunners => if runners.all Runner.hasEnded then some (s, .ended, []) else none
  | ended => none

/-! ### Runners -/

/-- The worker has ended. -/
def Worker.hasEnded (w : Worker) : Bool :=
  match w.stage with
  | .ended => true
  | _ => false

/-- What an outcome changes in the record of its task. -/
def recorded (outcome : Ingest.Outcome) (t : Task) : Task :=
  match outcome with
  | .ingested _ chunks triples _ => t.countIngested chunks triples
  | .failed _ _ => t.countFailed
  | .skipped _ => t

/-- The files of a batch; there is at least one. -/
def Setting.batchSize (S : Setting σ) : Nat := max S.limits.batchSize 1

/-- The workers of a runner; there is at least one. -/
def Setting.fileWorkers (S : Setting σ) : Nat := max S.limits.fileWorkers 1

/-- The move of a runner. -/
def Runner.step? (S : Setting σ) (s : Shared σ) (r : Runner) : Option (Shared σ × Runner) :=
  let id := r.job.id
  match r.stage with
  | .start =>
    let (registry, moved) := s.registry.transition id .processing none S.now
    some (s.withRegistry registry, { r with stage := if moved then .enumerate else .giveBack })
  | .enumerate =>
    if s.held.contains r.job.source then none
    else
      match S.enumerate r.job.source r.job.branch with
      | .ok snapshot => some (s, { r with stage := .expect snapshot })
      | .error fault =>
        some (s, { r with stage := .finish (.settle id (some fault.message)) })
  | .expect snapshot =>
    some (s.updateTask id (.expectFiles snapshot.files.length),
      { r with
        stage := .nextBatch (groups S.batchSize snapshot.files)
        context := ⟨id, snapshot.repositoryRoot, snapshot.commitHash, snapshot.branch, S.now⟩
        workers := List.replicate S.fileWorkers .fresh })
  | .nextBatch [] => some (s, { r with stage := .closeFiles })
  | .nextBatch (files :: later) =>
    -- A batch that was begun is fed to its end: its files are then skipped by the workers.
    if s.registry.isCancelled id then some (s, { r with stage := .closeFiles })
    else some (s, { r with stage := .feed files 0 later })
  | .feed [] sent later => some (s, { r with stage := .await sent later })
  | .feed (file :: files) sent later =>
    if r.files.length < S.batchSize then
      some (s, { r with stage := .feed files (sent + 1) later, files := r.files ++ [file] })
    else none
  | .await 0 later => some (s, { r with stage := .nextBatch later })
  | .await (remaining + 1) later =>
    match r.reports with
    | [] => none
    -- Only a report of the end of a file counts towards the batch.
    | .started path :: reports =>
      some (s, { r with stage := .noteFile path (remaining + 1) later, reports := reports })
    | .finished outcome :: reports =>
      some (s, { r with stage := .record outcome remaining later, reports := reports })
  | .noteFile path remaining later =>
    some (s.updateTask id (.beginFile path), { r with stage := .await remaining later })
  | .record outcome remaining later =>
    some (s.updateTask id (recorded outcome), { r with stage := .await remaining later })
  | .closeFiles => some (s, { r with stage := .awaitWorkers, filesClosed := true })
  | .awaitWorkers =>
    if r.workers.all Worker.hasEnded then some (s, { r with stage := .check }) else none
  | .check =>
    let error := if s.registry.isCancelled id then some cancelled else none
    some (s, { r with stage := .finish (.settle id error) })
  | .finish ending =>
    match ending.step S s with
    | (s, some ending) => some (s, { r with stage := .finish ending })
    | (s, none) => some (s, { r with stage := .giveBack })
  | .giveBack => some ({ s with permits := s.permits + 1 }, { r with stage := .ended })
  | .ended => none

/-! ### Workers -/

/-- The move of a worker of the runner `r`. -/
def Worker.step? (S : Setting σ) (s : Shared σ) (r : Runner) (w : Worker) :
    Option (Shared σ × Runner × Worker) :=
  match w.stage with
  | .idle =>
    match r.files with
    | file :: files => some (s, { r with files := files }, { w with stage := .check file })
    | [] => if r.filesClosed then some (s, r, { w with stage := .ended }) else none
  | .check file =>
    let stage : Worker.Stage :=
      if s.registry.isCancelled r.job.id then .report (.skipped file.path) else .begin file
    some (s, r, { w with stage := stage })
  | .begin file =>
    some (s, { r with reports := r.reports ++ [.started file.path] },
      { w with stage := .process file })
  | .process file =>
    let (outcome, parsers, desk) := Ingest.process S.processor r.context file w.parsers s.desk
    some ({ s with desk := desk }, r, ⟨.report outcome, parsers⟩)
  | .report outcome =>
    some (s, { r with reports := r.reports ++ [.finished outcome] }, { w with stage := .idle })
  | .ended => none

/-! ### Moves -/

/-- Whose turn it is. -/
inductive Move where
  | call (index : Nat)
  | dispatcher
  | runner (index : Nat)
  | worker (runner index : Nat)
  deriving DecidableEq, Repr

/-- The state after one part has taken its turn, if it has a move. -/
def State.step? (S : Setting σ) (s : State σ) : Move → Option (State σ)
  | .call i => do
    let call ← s.calls[i]?
    let (shared, call) ← call.step? S s.dispatcher s.shared
    return { s with shared := shared, calls := s.calls.set i call }
  | .dispatcher => do
    let (shared, dispatcher, started) ← s.dispatcher.step? S s.runners s.shared
    return { s with
      shared := shared, dispatcher := dispatcher, runners := s.runners ++ started }
  | .runner i => do
    let runner ← s.runners[i]?
    let (shared, runner) ← runner.step? S s.shared
    return { s with shared := shared, runners := s.runners.set i runner }
  | .worker i k => do
    let runner ← s.runners[i]?
    let worker ← runner.workers[k]?
    let (shared, runner, worker) ← worker.step? S s.shared runner
    let runner := { runner with workers := runner.workers.set k worker }
    return { s with shared := shared, runners := s.runners.set i runner }

/-- The state in which a request has been made and nothing was done for it yet. -/
def State.request (s : State σ) (r : Request) : State σ :=
  { s with calls := s.calls ++ [r.call] }

/-- The state in which the files of a source can be listed. -/
def State.letGo (s : State σ) (source : String) : State σ :=
  { s with shared := { s.shared with held := s.shared.held.filter (· != source) } }

/-- The states that moves and requests lead to, in any order, from a fresh scheduler. -/
inductive Reachable (S : Setting σ) (store : σ) : State σ → Prop
  | start (held : List String) : Reachable S store (.start S.limits store held)
  | request {s : State σ} (r : Request) : Reachable S store s → Reachable S store (s.request r)
  | letGo {s : State σ} (source : String) :
    Reachable S store s → Reachable S store (s.letGo source)
  | move {s t : State σ} (m : Move) :
    Reachable S store s → s.step? S m = some t → Reachable S store t

end CodeIndex.Scheduler
