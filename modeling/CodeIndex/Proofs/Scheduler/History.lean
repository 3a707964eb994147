import CodeIndex.Proofs.Scheduler.Progress
/-!
# Runs and what is noted on the way

`State.run` is the state after some acts, and `State.collect` everything that was noted while they
were done, where a note may be any list that is read off a state and the act done in it: jobs that
enter the queue, announcements that fail. Nothing the scheduler does depends on the notes.

States of runs are those of logs, so all that is known of logs (`Log.IsSound`) holds of them. What
does not speak of ledgers is repeated here for states: jobs are in one place, ids are given out
once, and a runner stands where its record says (`Runner.Stands`).
-/

namespace CodeIndex.Scheduler

variable {σ : Type} {S : Setting σ} {α : Type}

/-! ### Runs -/

namespace State

/-- The state after one more act. -/
def act (S : Setting σ) (s : State σ) : Act → State σ
  | .request r => s.request r
  | .letGo source => s.letGo source
  | .move m => (s.step? S m).getD s

/-- The state after some acts. -/
def run (S : Setting σ) (s : State σ) (acts : List Act) : State σ :=
  acts.foldl (act S) s

/-- All that is noted during some acts, the earliest first. -/
def collect (S : Setting σ) (note : State σ → Act → List α) (s : State σ) : List Act → List α
  | [] => []
  | a :: acts => note s a ++ collect S note (s.act S a) acts

theorem run_append (s : State σ) (acts later : List Act) :
    s.run S (acts ++ later) = (s.run S acts).run S later :=
  List.foldl_append

theorem run_concat (s : State σ) (acts : List Act) (a : Act) :
    s.run S (acts ++ [a]) = (s.run S acts).act S a :=
  s.run_append acts [a]

theorem collect_concat (note : State σ → Act → List α) (s : State σ) (acts : List Act) (a : Act) :
    s.collect S note (acts ++ [a]) = s.collect S note acts ++ note (s.run S acts) a := by
  induction acts generalizing s with
  | nil => exact List.append_nil _
  | cons b acts ih =>
    show note s b ++ (s.act S b).collect S note (acts ++ [a]) = _
    rw [ih, ← List.append_assoc]
    rfl

/-- What holds at the start and is kept by every act holds after any acts. -/
theorem run_induction {P : List Act → State σ → Prop} {s : State σ} (h : P [] s)
    (hact : ∀ acts a, P acts (s.run S acts) → P (acts ++ [a]) ((s.run S acts).act S a))
    (acts : List Act) : P acts (s.run S acts) := by
  induction acts using List.reverseRecOn with
  | nil => exact h
  | append_singleton acts a ih =>
    rw [run_concat]
    exact hact acts a ih

end State

/-- A log has the state of the run. -/
theorem Log.state_run (g : Log σ) (acts : List Act) :
    (g.run S acts).state = g.state.run S acts := by
  induction acts generalizing g with
  | nil => rfl
  | cons a acts ih =>
    have hact : (g.act S a).state = g.state.act S a := by
      cases a with
      | request r | letGo source => rfl
      | move m =>
        rw [Log.act, State.act]
        cases g.state.step? S m <;> rfl
    show ((g.act S a).run S acts).state = (g.state.act S a).run S acts
    rw [ih, hact]

/-! ### Where a runner stands -/

/-- The runner is about to do something for its task, which it has not ended. -/
def Runner.Stage.isWorking : Runner.Stage → Bool
  | start | finish _ | giveBack | ended => false
  | _ => true

/-- The record of a task is as its runner has left it. -/
def Runner.Stands (r : Runner) (a : TaskRecord) : Prop :=
  match r.stage with
  | .start => a.IsUnstarted
  | .finish (.settle id _) => a.IsRunning ∧ id = r.job.id
  | .finish _ | .giveBack | .ended => a.task.status.isTerminal = true
  | _ => a.IsRunning

theorem Runner.IsPlaced.stands {batchSize : Nat} {l : Ledger} {a : TaskRecord} {r : Runner}
    (h : r.IsPlaced batchSize l a) : r.Stands a := by
  rw [Runner.IsPlaced] at h
  rw [Runner.Stands]
  cases hstage : r.stage with
  | finish ending =>
    rw [hstage] at h
    cases ending with
    | settle id error => exact ⟨h.1, h.2.1⟩
    | lookUp id | announce task | evict => exact h.1
  | start | enumerate | expect snapshot | nextBatch later | feed files sent later
  | await remaining later | noteFile path remaining later | record outcome remaining later
  | closeFiles | awaitWorkers | check | giveBack | ended =>
    rw [hstage] at h
    exact h.1

namespace Runner.Stands

variable {r : Runner} {a : TaskRecord} (h : r.Stands a)
include h

theorem isRunning (hworking : r.stage.isWorking = true) : a.IsRunning := by
  rw [Runner.Stands] at h
  revert h hworking
  cases r.stage with
  | start | finish ending | giveBack | ended => exact fun _ hworking => nomatch hworking
  | enumerate | expect snapshot | nextBatch later | feed files sent later
  | await remaining later | noteFile path remaining later | record outcome remaining later
  | closeFiles | awaitWorkers | check => exact fun h _ => h

theorem isUnstarted (hstage : r.stage = .start) : a.IsUnstarted := by
  rwa [Runner.Stands, hstage] at h

theorem of_settle {id : String} {error : Option String}
    (hstage : r.stage = .finish (.settle id error)) : a.IsRunning ∧ id = r.job.id := by
  rwa [Runner.Stands, hstage] at h

/-- A pending task has a runner that has done nothing yet. -/
theorem stage_of_pending (hpending : a.task.status = .pending) : r.stage = .start := by
  rw [Runner.Stands] at h
  have hnot : ¬ a.IsRunning := by
    intro hrunning
    rw [hrunning.1] at hpending
    cases hpending
  have hnotEnded : ¬ a.task.status.isTerminal = true := by
    rw [hpending]
    exact Bool.false_ne_true
  cases hstage : r.stage with
  | start => rfl
  | finish ending =>
    rw [hstage] at h
    cases ending with
    | settle id error => exact absurd h.1 hnot
    | lookUp id | announce task | evict => exact absurd h hnotEnded
  | giveBack | ended =>
    rw [hstage] at h
    exact absurd h hnotEnded
  | enumerate | expect snapshot | nextBatch later | feed files sent later
  | await remaining later | noteFile path remaining later | record outcome remaining later
  | closeFiles | awaitWorkers | check =>
    rw [hstage] at h
    exact absurd h hnot

/-- A runner whose task is still processed has not ended. -/
theorem hasEnded_of_processing (hprocessing : a.task.status = .processing) :
    r.hasEnded = false := by
  rw [Runner.Stands] at h
  rw [Runner.hasEnded]
  cases hstage : r.stage with
  | ended =>
    rw [hstage, hprocessing] at h
    cases h
  | start | finish ending | giveBack | enumerate | expect snapshot | nextBatch later
  | feed files sent later | await remaining later | noteFile path remaining later
  | record outcome remaining later | closeFiles | awaitWorkers | check => rfl

end Runner.Stands

/-! ### What holds of all states -/

/-- The state is one of a log in which everything is in order. -/
def State.IsSound (S : Setting σ) (s : State σ) : Prop :=
  ∃ ledger, Log.IsSound S ⟨s, ledger⟩

/-- Whatever happens, everything stays in order. -/
theorem State.isSound_run (S : Setting σ) (store : σ) (held : List String) (acts : List Act) :
    ((State.start S.limits store held).run S acts).IsSound S := by
  have hsound := ((Log.isSound_start (S := S) store held).run acts).1
  have hstate : ((Log.start S store held).run S acts).state
      = (State.start S.limits store held).run S acts := Log.state_run _ acts
  exact ⟨((Log.start S store held).run S acts).ledger, hstate ▸ hsound⟩

namespace State.IsSound

variable {s : State σ} (h : s.IsSound S)
include h

theorem nodup_jobs : s.jobs.Nodup := by
  obtain ⟨_, hsound⟩ := h
  exact hsound.nodup

theorem nodup_ids : s.shared.registry.ids.Nodup := by
  obtain ⟨_, hsound⟩ := h
  exact hsound.nodup_ids

/-- The next id belongs to nobody. -/
theorem idOf_not_mem : idOf s.shared.issued ∉ s.shared.registry.ids := by
  obtain ⟨_, hsound⟩ := h
  have hids : s.shared.registry.ids = issuedIds s.shared.issued := hsound.ids
  rw [hids]
  exact idOf_not_mem_issuedIds _

/-- A runner stands where the record of its task says. -/
theorem stands {r : Runner} (hr : r ∈ s.runners) :
    ∃ a, s.shared.registry.record? r.job.id = some a ∧ r.Stands a := by
  obtain ⟨_, hsound⟩ := h
  obtain ⟨a, ha, horder⟩ := hsound.running r hr
  exact ⟨a, ha, horder.place.stands⟩

/-- A task without a runner has not started. -/
theorem isUnstarted {j : String} (hj : j ∉ runnerJobs s.runners) {a : TaskRecord}
    (ha : s.shared.registry.record? j = some a) : a.IsUnstarted := by
  obtain ⟨_, hsound⟩ := h
  exact (hsound.unstarted j hj).2 a ha

theorem exists_record? {j : String} (hj : j ∈ s.jobs) :
    ∃ a, s.shared.registry.record? j = some a := by
  obtain ⟨_, hsound⟩ := h
  exact TaskRegistry.exists_record? (hsound.known j hj)

end State.IsSound

/-! ### A scheduler at work -/

/-- A scheduler whose sources have no files. -/
def Setting.withoutFiles (limits : Config.Pipeline) : Setting Store.Memory where
  limits := limits
  processor := ⟨⟨[]⟩, .empty, .ofNats 1 1, Store.Memory.api⟩
  enumerate := fun _ _ => .ok ⟨"/r", none, none, []⟩
  now := .epoch

/-- Some turns of one part. -/
def Move.turns (m : Move) (n : Nat) : List Act :=
  List.replicate n (.move m)

/-- A task is submitted by the call `i`, and the dispatcher starts a runner for it. -/
def Act.admission (i : Nat) : List Act :=
  .request (.submit "s" none) :: Move.turns (.call i) 4 ++ Move.turns .dispatcher 6

/-- The runner `i` goes on, with its only worker, until it has no files left and is about to check
whether its task was cancelled. -/
def Act.work (i : Nat) : List Act :=
  Move.turns (.runner i) 5 ++ .move (.worker i 0) :: Move.turns (.runner i) 1

end CodeIndex.Scheduler
