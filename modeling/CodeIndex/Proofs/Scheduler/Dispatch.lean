import CodeIndex.Scheduler.Step
/-!
# Turns of the dispatcher

Everything that the dispatcher can do in one turn, each written out once (`Dispatcher.Turn`): at
every stage a job either goes on to the next one or is turned back, and why is part of the turn.
Other modules take the turns of the dispatcher apart by these cases and never unfold its moves.
-/

namespace CodeIndex.Scheduler

variable {σ : Type} {S : Setting σ} {s s' : Shared σ}

namespace Dispatcher

/-- What the dispatcher does, and the runners that it starts. -/
inductive Turn (S : Setting σ) (runners : List Runner) (s : Shared σ) :
    Dispatcher → Shared σ → Dispatcher → List Runner → Prop
  /-- The signal to stop is noticed between two jobs. -/
  | stops (signal : s.stopSignal = true) :
      Turn S runners s .select { s with stopSignal := false } .close []
  | receives {job : Job} {queue : List Job} (next : s.queue = job :: queue) :
      Turn S runners s .select { s with queue := queue } (.received job) []
  /-- The job was cancelled in the queue. -/
  | dismisses {job : Job} (isCancelled : s.registry.isCancelled job.id = true) :
      Turn S runners s (.received job) s (.finish (.settle job.id (some cancelled)) false) []
  | proceeds {job : Job} : Turn S runners s (.received job) s (.acquire job) []
  /-- The signal to stop is noticed while a job waits for a permit. -/
  | halts {job : Job} (signal : s.stopSignal = true) :
      Turn S runners s (.acquire job) { s with stopSignal := false }
        (.finish (.settle job.id (some shutDown)) true) []
  | acquires {job : Job} {permits : Nat} (free : s.permits = permits + 1) :
      Turn S runners s (.acquire job) { s with permits := permits } (.granted job) []
  /-- The job was cancelled while it waited for its permit. -/
  | withdraws {job : Job} (isCancelled : s.registry.isCancelled job.id = true) :
      Turn S runners s (.granted job) s (.giveBack job cancelled) []
  | confirms {job : Job} : Turn S runners s (.granted job) s (.admitted job) []
  /-- No more tasks are started. -/
  | withholds {job : Job} (shutting : s.shuttingDown = true) :
      Turn S runners s (.admitted job) s (.giveBack job shutDown) []
  | admits {job : Job} : Turn S runners s (.admitted job) s (.spawn job) []
  | spawns {job : Job} : Turn S runners s (.spawn job) s .select [.ofJob job S.now]
  | givesBack {job : Job} {error : String} :
      Turn S runners s (.giveBack job error) { s with permits := s.permits + 1 }
        (.finish (.settle job.id (some error)) false) []
  | finishes {ending : Ending} {left : Option Ending} {stopping : Bool} {s' : Shared σ}
      (done : ending.step S s = (s', left)) :
      Turn S runners s (.finish ending stopping) s'
        (left.elim (if stopping then .close else .select) (.finish · stopping)) []
  | closes : Turn S runners s .close { s with queueClosed := true } .drain []
  /-- A job that was left in the queue is not started any more. -/
  | drains {job : Job} {queue : List Job} (next : s.queue = job :: queue) :
      Turn S runners s .drain { s with queue := queue }
        (.finishDrained (.settle job.id (some shutDown))) []
  | empties (empty : s.queue = []) : Turn S runners s .drain s .awaitRunners []
  | finishesDrained {ending : Ending} {left : Option Ending} {s' : Shared σ}
      (done : ending.step S s = (s', left)) :
      Turn S runners s (.finishDrained ending) s' (left.elim .drain .finishDrained) []
  | ends : Turn S runners s .awaitRunners s .ended []

variable {runners started : List Runner} {dispatcher' : Dispatcher} {job : Job} {ending : Ending}

/-! ### Stages -/

theorem turn_select (h : step? S runners s .select = some (s', dispatcher', started)) :
    Turn S runners s .select s' dispatcher' started := by
  simp only [step?] at h
  split at h
  · cases h
    exact .stops ‹_›
  · split at h
    · cases h
    · cases h
      exact .receives ‹_›

theorem turn_received (h : step? S runners s (.received job) = some (s', dispatcher', started)) :
    Turn S runners s (.received job) s' dispatcher' started := by
  simp only [step?] at h
  split at h
  · cases h
    exact .dismisses ‹_›
  · cases h
    exact .proceeds

theorem turn_acquire (h : step? S runners s (.acquire job) = some (s', dispatcher', started)) :
    Turn S runners s (.acquire job) s' dispatcher' started := by
  simp only [step?] at h
  split at h
  · cases h
    exact .halts ‹_›
  · split at h
    · cases h
    · cases h
      exact .acquires ‹_›

theorem turn_granted (h : step? S runners s (.granted job) = some (s', dispatcher', started)) :
    Turn S runners s (.granted job) s' dispatcher' started := by
  simp only [step?] at h
  split at h
  · cases h
    exact .withdraws ‹_›
  · cases h
    exact .confirms

theorem turn_admitted (h : step? S runners s (.admitted job) = some (s', dispatcher', started)) :
    Turn S runners s (.admitted job) s' dispatcher' started := by
  simp only [step?] at h
  split at h
  · cases h
    exact .withholds ‹_›
  · cases h
    exact .admits

theorem turn_finish {stopping : Bool}
    (h : step? S runners s (.finish ending stopping) = some (s', dispatcher', started)) :
    Turn S runners s (.finish ending stopping) s' dispatcher' started := by
  simp only [step?] at h
  split at h
  all_goals
    cases h
    exact .finishes ‹_›

theorem turn_drain (h : step? S runners s .drain = some (s', dispatcher', started)) :
    Turn S runners s .drain s' dispatcher' started := by
  simp only [step?] at h
  split at h
  · cases h
    exact .empties ‹_›
  · cases h
    exact .drains ‹_›

theorem turn_finishDrained
    (h : step? S runners s (.finishDrained ending) = some (s', dispatcher', started)) :
    Turn S runners s (.finishDrained ending) s' dispatcher' started := by
  simp only [step?] at h
  split at h
  all_goals
    cases h
    exact .finishesDrained ‹_›

theorem turn_awaitRunners (h : step? S runners s .awaitRunners = some (s', dispatcher', started)) :
    Turn S runners s .awaitRunners s' dispatcher' started := by
  simp only [step?] at h
  split at h
  · cases h
    exact .ends
  · cases h

/-- There is nothing else that the dispatcher does. -/
theorem turn {dispatcher : Dispatcher}
    (h : dispatcher.step? S runners s = some (s', dispatcher', started)) :
    Turn S runners s dispatcher s' dispatcher' started := by
  cases dispatcher with
  | select => exact turn_select h
  | received job => exact turn_received h
  | acquire job => exact turn_acquire h
  | granted job => exact turn_granted h
  | admitted job => exact turn_admitted h
  | spawn job =>
    cases h
    exact .spawns
  | giveBack job error =>
    cases h
    exact .givesBack
  | finish ending stopping => exact turn_finish h
  | close =>
    cases h
    exact .closes
  | drain => exact turn_drain h
  | finishDrained ending => exact turn_finishDrained h
  | awaitRunners => exact turn_awaitRunners h
  | ended => cases h

/-- The dispatcher starts no runner but the one of a job that it spawns. -/
theorem Turn.started_cases {dispatcher : Dispatcher}
    (h : Turn S runners s dispatcher s' dispatcher' started) :
    started = [] ∨ ∃ job, dispatcher = .spawn job ∧ s' = s ∧ dispatcher' = .select ∧
      started = [.ofJob job S.now] := by
  cases h with
  | @spawns job => exact Or.inr ⟨job, rfl, rfl, rfl, rfl⟩
  | stops | receives | dismisses | proceeds | halts | acquires | withdraws | confirms | withholds
  | admits | givesBack | finishes | closes | drains | empties | finishesDrained | ends =>
    exact Or.inl rfl

end Dispatcher

end CodeIndex.Scheduler
