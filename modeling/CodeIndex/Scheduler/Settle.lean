import CodeIndex.Scheduler.Step
/-!
# Running the scheduler

One order of moves, in which a state runs until no part has a move left. Calls come first, then the
dispatcher, then the runners in the order of their start, each with its workers before itself. Since
every move is one of `State.step?`, whatever holds of all reachable states holds of these.

An observer may answer events with requests of its own, which are carried out before anything else
moves.
-/

namespace CodeIndex.Scheduler

variable {σ : Type}

namespace State

/-! ### Choosing a move -/

/-- The turns of a runner and its workers. -/
def runnerMoves (i : Nat) (r : Runner) : List Move :=
  (List.range r.workers.length).map (.worker i) ++ [.runner i]

/-- All turns, in the order of preference. -/
def moves (s : State σ) : List Move :=
  (List.range s.calls.length).map .call ++ .dispatcher ::
    (s.runners.mapIdx runnerMoves).flatten

/-- The state after the first part that has a move has taken its turn. -/
def advance? (S : Setting σ) (s : State σ) : Option (State σ) :=
  s.moves.findSome? (s.step? S)

/-! ### Calls -/

/-- Lets one call move until it waits or is done, at most so many times. -/
def runCall (S : Setting σ) (i : Nat) : Nat → State σ → State σ
  | 0, s => s
  | turns + 1, s =>
    match s.step? S (.call i) with
    | some s => runCall S i turns s
    | none => s

/-- The most moves that a call has: those of a cancellation that has to be announced. -/
def callTurns : Nat := 8

/-- Makes a request and lets nothing but its call move. -/
def perform (S : Setting σ) (s : State σ) (r : Request) : State σ :=
  (s.request r).runCall S s.calls.length callTurns

/-- The reply of a call, if it is done. -/
def reply? (s : State σ) (i : Nat) : Option Reply :=
  match s.calls[i]? with
  | some (.done reply) => some reply
  | _ => none

/-! ### Settling -/

/-- Answers what has happened with requests. It is shown all events up to a new one, the latest
last. -/
abbrev Observer (σ : Type) := State σ → List Event → List Request

/-- Answers the events that came behind the first `seen`. -/
def respond (S : Setting σ) (observer : Observer σ) (seen : Nat) (s : State σ) : State σ :=
  if seen < s.shared.desk.events.length then
    (observer s s.shared.desk.events).foldl (perform S) s
  else s

/-- Runs until nothing has a move left, for at most so many moves. -/
def settleWithin (S : Setting σ) (observer : Observer σ) : Nat → State σ → State σ
  | 0, s => s
  | moves + 1, s =>
    match s.advance? S with
    | none => s
    | some t =>
      settleWithin S observer moves (t.respond S observer s.shared.desk.events.length)

/-- As many moves as one task can take: some for every file and worker, and some for the task. -/
def taskMoves (S : Setting σ) (t : Task) : Nat :=
  let files :=
    match S.enumerate t.source t.branch with
    | .ok snapshot => snapshot.files.length
    | .error _ => 0
  16 * files + 4 * S.fileWorkers + 64

/-- As many moves as are left in a state. -/
def movesLeft (S : Setting σ) (s : State σ) : Nat :=
  s.shared.registry.records.foldl (fun n r => n + taskMoves S r.task) (8 * s.calls.length + 64)

/-- Runs until nothing has a move left. -/
def settle (S : Setting σ) (observer : Observer σ) (s : State σ) : State σ :=
  settleWithin S observer (s.movesLeft S) s

end State

end CodeIndex.Scheduler
