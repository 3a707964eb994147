import CodeIndex.Proofs.Scheduler.Moves
/-!
# Permits

Permits are neither made nor lost (`State.permits_act`): each is free, with the dispatcher, or with
a runner that has not ended. A task that is processed has such a runner
(`State.IsSound.exists_runner`), so there are never more of these tasks than permits.
-/

namespace CodeIndex.Scheduler

variable {σ : Type} {S : Setting σ} {s s' : Shared σ}

/-! ### Who has them -/

/-- The permit that the dispatcher has taken for the job it holds. -/
def Dispatcher.permits : Dispatcher → Nat
  | granted _ | admitted _ | spawn _ | giveBack _ _ => 1
  | _ => 0

/-- A runner has a permit until it ends. -/
def Runner.Stage.permits : Runner.Stage → Nat
  | ended => 0
  | _ => 1

/-- All permits, wherever they are. -/
def State.permits (s : State σ) : Nat :=
  s.shared.permits + s.dispatcher.permits + (s.runners.map (·.stage.permits)).sum

theorem Runner.Stage.permits_of_isWorking {stage : Runner.Stage} (h : stage.isWorking = true) :
    stage.permits = 1 := by
  cases stage <;> first | rfl | cases h

theorem Call.Turn.permits {call call' : Call} (turn : Call.Turn S s call s' call') :
    s'.permits = s.permits := by
  cases turn with
  | refuses turn | announces turn => exact turn.frame.2.1
  | reads | counts | inserts | sends | returns | cancels | fails | leaves | forgets
  | refusesFurther | signals | takes => rfl

/-- The dispatcher takes a permit for a job, and gives it back or hands it to a runner. -/
theorem Dispatcher.Turn.permits {dispatcher dispatcher' : Dispatcher}
    {runners started : List Runner}
    (turn : Dispatcher.Turn S runners s dispatcher s' dispatcher' started) :
    s'.permits + dispatcher'.permits + (started.map (·.stage.permits)).sum
      = s.permits + dispatcher.permits := by
  cases turn with
  | acquires free =>
    rw [free]
    rfl
  | @finishes ending left stopping _ done =>
    rw [(Ending.turn done).frame.2.1]
    cases left <;> cases stopping <;> rfl
  | @finishesDrained ending left _ done =>
    rw [(Ending.turn done).frame.2.1]
    cases left <;> rfl
  | stops | receives | dismisses | proceeds | halts | withdraws | confirms | withholds | admits
  | spawns | givesBack | closes | drains | empties | ends => rfl

/-- A runner gives its permit back in the turn in which it ends. -/
theorem Runner.Turn.permits {r r' : Runner} (turn : Runner.Turn S s r s' r') :
    s'.permits + r'.stage.permits = s.permits + r.stage.permits := by
  cases turn with
  | begins stage | declines stage | givesBack stage =>
    rw [stage]
    rfl
  | works _ before after =>
    rw [Stage.permits_of_isWorking before, Stage.permits_of_isWorking after]
  | updates _ before after =>
    rw [Stage.permits_of_isWorking before, Stage.permits_of_isWorking after]
    rfl
  | concludes before =>
    rw [Stage.permits_of_isWorking before]
    rfl
  | @finishes ending left _ _ stage turn next =>
    rw [turn.frame.2.1, stage, next]
    cases left <;> rfl

/-- Permits are neither made nor lost. -/
theorem State.permits_act (s : State σ) (a : Act) : (s.act S a).permits = s.permits := by
  have hturn := s.turn S a
  generalize s.act S a = t at hturn ⊢
  cases hturn with
  | rests | requests | letsGo => rfl
  | call _ turn => rw [permits, permits, turn.permits]
  | dispatcher turn =>
    have hmoved := turn.permits
    simp only [permits, List.map_append, List.sum_append]
    omega
  | @runner i r r' shared started turn =>
    have hmoved := turn.permits
    have hsum := sum_map_set (·.stage.permits) r' started
    simp only [permits] at hsum ⊢
    omega
  | @worker i k r r' desk started _ _ stage =>
    have hsum := sum_map_set (·.stage.permits) r' started
    simp only [permits, stage] at hsum ⊢
    omega

/-- After any acts there are as many permits as at the beginning. -/
theorem State.permits_run (S : Setting σ) (store : σ) (held : List String) (acts : List Act) :
    ((State.start S.limits store held).run S acts).permits
      = max S.limits.maxConcurrentTasks 1 :=
  run_induction (P := fun _ s => s.permits = max S.limits.maxConcurrentTasks 1) rfl
    (fun _ _ h => (permits_act _ _).trans h) acts

theorem sum_permits (runners : List Runner) :
    (runners.map (·.stage.permits)).sum = runners.countP fun r => !r.hasEnded := by
  induction runners with
  | nil => rfl
  | cons r runners ih =>
    rw [List.map_cons, List.sum_cons, ih, List.countP_cons, Nat.add_comm, Runner.hasEnded]
    cases r.stage <;> rfl

/-- A task that is processed has a runner which has not ended. -/
theorem State.IsSound.exists_runner {s : State σ} (h : s.IsSound S) {a : TaskRecord}
    (ha : a ∈ s.shared.registry.records) (hprocessing : a.task.status = .processing) :
    ∃ r ∈ s.runners, r.job.id = a.id ∧ r.hasEnded = false := by
  have hrecord := TaskRegistry.record?_of_mem h.nodup_ids ha
  have hrun : a.id ∈ runnerJobs s.runners := by
    by_contra hnobody
    rcases h.isUnstarted hnobody hrecord with ⟨hpending, _⟩ | hfailed
    · cases hprocessing.symm.trans hpending
    · cases hprocessing.symm.trans hfailed
  obtain ⟨r, hr, hid⟩ := List.mem_map.mp hrun
  obtain ⟨a', ha', hstands⟩ := h.stands hr
  rw [hid, hrecord] at ha'
  cases ha'
  exact ⟨r, hr, hid, hstands.hasEnded_of_processing hprocessing⟩

/-- No more tasks are processed than there are permits. -/
theorem State.IsSound.processing_le {s : State σ} (h : s.IsSound S) :
    s.shared.registry.records.countP (·.task.status == .processing) ≤ s.permits := by
  let processing := s.shared.registry.records.filter (·.task.status == .processing)
  let running := s.runners.filter fun r => !r.hasEnded
  have hnodup : (processing.map TaskRecord.id).Nodup :=
    h.nodup_ids.sublist (List.filter_sublist.map _)
  have hsubset : processing.map TaskRecord.id ⊆ running.map (·.job.id) := by
    intro j hj
    obtain ⟨a, ha, rfl⟩ := List.mem_map.mp hj
    obtain ⟨hmem, hstatus⟩ := List.mem_filter.mp ha
    obtain ⟨r, hr, hid, hrunning⟩ := h.exists_runner hmem (beq_iff_eq.mp hstatus)
    refine List.mem_map.mpr ⟨r, List.mem_filter.mpr ⟨hr, ?_⟩, hid⟩
    rw [hrunning]
    rfl
  have hle := (hnodup.subperm hsubset).length_le
  rw [List.length_map, List.length_map, ← List.countP_eq_length_filter,
    ← List.countP_eq_length_filter] at hle
  calc s.shared.registry.records.countP (·.task.status == .processing)
      ≤ s.runners.countP fun r => !r.hasEnded := hle
    _ = (s.runners.map (·.stage.permits)).sum := (sum_permits s.runners).symm
    _ ≤ s.permits := Nat.le_add_left _ _

end CodeIndex.Scheduler
