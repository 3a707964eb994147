import CodeIndex.Scheduler.Step
import Mathlib.Data.List.Infix
import Mathlib.Logic.Function.Basic
/-!
# What happens to files while the scheduler runs

A state tells how far everything has come, but not how it got there. `Log` keeps with a state a
ledger for every task, in which all that happens to its files is entered: `Log.run` is the log after
any sequence of acts, each a request, the release of a source or the turn of one part. What a turn
enters is read off the state in which it is taken (`State.note?`), and nothing the scheduler does
depends on it: the states of logs are exactly the reachable ones (`reachable_iff_run`).
-/

namespace CodeIndex.Scheduler

variable {σ : Type} (S : Setting σ)

/-! ### Acts -/

/-- One thing that happens to the scheduler, or the turn of one of its parts. -/
inductive Act where
  | request (request : Request)
  | letGo (source : String)
  /-- A part without a move does nothing. -/
  | move (move : Move)
  deriving DecidableEq, Repr

/-! ### Notes -/

/-- What happens to the files of one task. -/
inductive Note where
  /-- The runner lists all files that it is going to feed. -/
  | listed (files : List Source.File)
  /-- A worker takes a file. -/
  | received (file : Source.File)
  /-- A worker processes a file. -/
  | processed (file : Source.File)
  /-- A worker reports a file finished. -/
  | finished (outcome : Ingest.Outcome)
  /-- The runner enters an outcome in the record of the task. -/
  | recorded (outcome : Ingest.Outcome)

/-- What happens when a runner takes its turn. -/
def Runner.note? (r : Runner) : Option Note :=
  match r.stage with
  | .expect snapshot => some (.listed snapshot.files)
  | .record outcome _ _ => some (.recorded outcome)
  | _ => none

/-- What happens when a worker of the runner `r` takes its turn. -/
def Worker.note? (r : Runner) (w : Worker) : Option Note :=
  match w.stage with
  | .idle => r.files.head?.map .received
  | .process file => some (.processed file)
  | .report outcome => some (.finished outcome)
  | _ => none

/-- What happens in a move, and to the files of which task. -/
def State.note? (s : State σ) : Move → Option (String × Note)
  | .runner i => s.runners[i]?.bind fun r => r.note?.map (r.job.id, ·)
  | .worker i k =>
    s.runners[i]?.bind fun r => r.workers[k]?.bind fun w => (w.note? r).map (r.job.id, ·)
  | .call _ | .dispatcher => none

/-! ### Ledgers -/

/-- All that has happened to the files of one task, the earliest first. -/
structure Ledger where
  files : List Source.File
  received : List Source.File
  processed : List Source.File
  finished : List Ingest.Outcome
  recorded : List Ingest.Outcome

namespace Ledger

/-- The ledger of a task before anything has happened. -/
def empty : Ledger := ⟨[], [], [], [], []⟩

/-- The ledger with one more entry. -/
def enter (l : Ledger) : Note → Ledger
  | .listed files => { l with files := l.files ++ files }
  | .received file => { l with received := l.received ++ [file] }
  | .processed file => { l with processed := l.processed ++ [file] }
  | .finished outcome => { l with finished := l.finished ++ [outcome] }
  | .recorded outcome => { l with recorded := l.recorded ++ [outcome] }

theorem recorded_prefix_enter (l : Ledger) (note : Note) :
    l.recorded <+: (l.enter note).recorded := by
  cases note
  case recorded outcome => exact List.prefix_append _ _
  all_goals exact List.prefix_refl _

end Ledger

/-- The ledgers of all tasks with one more entry, if there is one. -/
def enterNote (ledgers : String → Ledger) : Option (String × Note) → String → Ledger
  | some (id, note) => Function.update ledgers id ((ledgers id).enter note)
  | none => ledgers

/-! ### Logs -/

/-- A state and the ledgers of all tasks on the way to it. -/
structure Log (σ : Type) where
  state : State σ
  ledger : String → Ledger

namespace Log

/-- The log of a fresh scheduler. -/
def start (store : σ) (held : List String) : Log σ :=
  ⟨.start S.limits store held, fun _ => .empty⟩

/-- The log after one more act. -/
def act (l : Log σ) : Act → Log σ
  | .request r => { l with state := l.state.request r }
  | .letGo source => { l with state := l.state.letGo source }
  | .move m =>
    match l.state.step? S m with
    | some s => ⟨s, enterNote l.ledger (l.state.note? m)⟩
    | none => l

/-- The log after some acts. -/
def run (l : Log σ) (acts : List Act) : Log σ :=
  acts.foldl (act S) l

variable {S} {l : Log σ}

/-- What holds at the start and is kept by every act holds after any acts. -/
theorem run_induction {P : Log σ → Prop} (hact : ∀ l a, P l → P (l.act S a)) (h : P l)
    (acts : List Act) : P (l.run S acts) := by
  induction acts generalizing l with
  | nil => exact h
  | cons a acts ih => exact ih (hact l a h)

theorem run_append (acts later : List Act) :
    l.run S (acts ++ later) = (l.run S acts).run S later :=
  List.foldl_append

theorem run_concat (acts : List Act) (a : Act) : l.run S (acts ++ [a]) = (l.run S acts).act S a :=
  run_append acts [a]

/-- What was recorded stays in the ledger. -/
theorem recorded_prefix_act (l : Log σ) (a : Act) (id : String) :
    (l.ledger id).recorded <+: ((l.act S a).ledger id).recorded := by
  cases a with
  | request r => exact List.prefix_refl _
  | letGo source => exact List.prefix_refl _
  | move m =>
    rw [act]
    split
    · cases hnote : l.state.note? m with
      | none => exact List.prefix_refl _
      | some entry =>
        obtain ⟨task, note⟩ := entry
        show (l.ledger id).recorded <+: (Function.update l.ledger task _ id).recorded
        by_cases hid : id = task
        · rw [hid, Function.update_self]
          exact Ledger.recorded_prefix_enter _ note
        · rw [Function.update_of_ne hid]
    · exact List.prefix_refl _

theorem recorded_prefix_run (l : Log σ) (acts : List Act) (id : String) :
    (l.ledger id).recorded <+: ((l.run S acts).ledger id).recorded := by
  refine run_induction (P := fun l' => (l.ledger id).recorded <+: (l'.ledger id).recorded)
    ?_ (List.prefix_refl _) acts
  exact fun l' a h => h.trans (recorded_prefix_act l' a id)

end Log

/-! ### Reachable states -/

/-- The states of logs are exactly the reachable ones. -/
theorem reachable_iff_run {store : σ} {s : State σ} :
    Reachable S store s ↔
      ∃ held acts, ((Log.start S store held).run S acts).state = s := by
  constructor
  · intro h
    induction h with
    | start held => exact ⟨held, [], rfl⟩
    | request r _ ih =>
      obtain ⟨held, acts, rfl⟩ := ih
      exact ⟨held, acts ++ [.request r], by rw [Log.run_concat, Log.act]⟩
    | letGo source _ ih =>
      obtain ⟨held, acts, rfl⟩ := ih
      exact ⟨held, acts ++ [.letGo source], by rw [Log.run_concat, Log.act]⟩
    | move m _ hstep ih =>
      obtain ⟨held, acts, rfl⟩ := ih
      exact ⟨held, acts ++ [.move m], by rw [Log.run_concat, Log.act, hstep]⟩
  · rintro ⟨held, acts, rfl⟩
    refine Log.run_induction (P := fun l => Reachable S store l.state) ?_ (.start held) acts
    intro l a h
    cases a with
    | request r => exact .request r h
    | letGo source => exact .letGo source h
    | move m =>
      rw [Log.act]
      split
      · exact .move m h ‹_›
      · exact h

end CodeIndex.Scheduler
