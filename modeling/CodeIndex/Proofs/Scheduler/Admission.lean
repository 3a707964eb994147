import CodeIndex.Proofs.Scheduler.Custody
import CodeIndex.Proofs.Scheduler.Permits
/-!
# Admission

The dispatcher lets go of jobs in the order in which they were sent (`State.Follows`): a job that it
lets go of has a runner or belongs to a task that has ended, and runners stand in the order of their
jobs. With the permits and the custody of pending tasks this gives `admission_fair`.
-/

namespace CodeIndex.Scheduler

variable {σ : Type} {S : Setting σ} {s s' : Shared σ}

/-! ### The order of jobs -/

/-- The task that is to be ended. -/
def Ending.holding : Ending → List String
  | settle id _ => [id]
  | _ => []

/-- The job that the dispatcher has taken and not let go of. -/
def Dispatcher.holding : Dispatcher → List String
  | received job | acquire job | granted job | admitted job | spawn job | giveBack job _ => [job.id]
  | finish ending _ | finishDrained ending => ending.holding
  | _ => []

theorem Ending.coe_holding (ending : Ending) : (ending.holding : Multiset String) = ending.jobs := by
  cases ending <;> rfl

theorem Dispatcher.coe_holding (dispatcher : Dispatcher) :
    (dispatcher.holding : Multiset String) = dispatcher.jobs := by
  cases dispatcher with
  | finish ending stopping | finishDrained ending => exact ending.coe_holding
  | select | received job | acquire job | granted job | admitted job | spawn job
  | giveBack job error | close | drain | awaitRunners | ended => rfl

/-- The job that a call sends in its turn. -/
def Call.sends (s : Shared σ) : Call → List String
  | send job => if s.queueClosed then [] else [job.id]
  | _ => []

/-- The job that is sent in an act. -/
def State.sends (s : State σ) : Act → List String
  | .move (.call i) => (s.calls[i]?).elim [] (Call.sends s.shared)
  | _ => []

/-- A call puts into the queue, behind all others, the job that it sends. -/
theorem Call.Turn.queue {call call' : Call} (turn : Call.Turn S s call s' call') :
    s'.queue.map Job.id = s.queue.map Job.id ++ call.sends s := by
  cases turn with
  | reads before after =>
    have hsends : call.sends s = [] := by cases call <;> first | rfl | cases before
    rw [hsends, List.append_nil]
  | sends isOpen =>
    rw [Call.sends, isOpen]
    exact List.map_append
  | returns closed =>
    rw [Call.sends, closed]
    exact (List.append_nil _).symm
  | refuses turn | announces turn =>
    rw [turn.frame.1]
    exact (List.append_nil _).symm
  | counts | inserts | cancels | fails | leaves | forgets | refusesFurther | signals | takes =>
    exact (List.append_nil _).symm

/-- Who may send has a move. -/
theorem State.sends_of_stuck {s : State σ} {m : Move} (h : s.step? S m = none) :
    s.sends (.move m) = [] := by
  cases m with
  | call i =>
    cases hcall : s.calls[i]? with
    | none => rw [sends, hcall, Option.elim_none]
    | some call =>
      rw [sends, hcall, Option.elim_some]
      cases call with
      | send job =>
        cases hclosed : s.shared.queueClosed <;> simp [step?, hcall, Call.step?, hclosed] at h
      | readFailed id | check source branch retryOf | count source branch retryOf
      | insert source branch retryOf | refuse ending | requestCancel id | failPending id seen
      | announceCancelled ending id seen | reread id seen | forget id | follow id | awaitEnd id
      | refuseFurther | signalStop | takeDispatcher | awaitDispatcher | done reply => rfl
  | dispatcher | runner i | worker i k => rfl

theorem Ending.Turn.left_holding {ending ending' : Ending}
    (turn : Ending.Turn S s ending s' (some ending')) : ending'.holding = [] := by
  cases turn <;> rfl

/-- Once a job is let go of at the end of its task, the task has failed. -/
theorem Ending.Turn.failed {ending : Ending} {left : Option Ending}
    (turn : Ending.Turn S s ending s' left) (hexcused : ending.IsExcused s)
    (hunstarted : s.AreUnstarted ending.jobs) :
    ∀ j ∈ ending.holding, ∃ t, s'.registry.lastSeen? j = some t ∧ t.status = .failed := by
  intro j hj
  cases ending with
  | settle id error =>
    obtain ⟨e, rfl, _⟩ := hexcused
    rw [List.mem_singleton.mp hj]
    exact turn.settled hunstarted
  | lookUp id | announce task | evict => cases hj

/-- What the dispatcher lets go of it had taken before all that is left, and it lets go of a job
with a runner or once the task has failed. -/
theorem Dispatcher.Turn.lets_go {dispatcher dispatcher' : Dispatcher}
    {runners started : List Runner}
    (turn : Dispatcher.Turn S runners s dispatcher s' dispatcher' started)
    (hexcused : dispatcher.IsExcused s) (hunstarted : s.AreUnstarted dispatcher.jobs) :
    ∃ gone, dispatcher.holding ++ s.queue.map Job.id
        = gone ++ (dispatcher'.holding ++ s'.queue.map Job.id) ∧
      (started.map (·.job.id)).Sublist gone ∧
      ∀ j ∈ gone, j ∉ started.map (·.job.id) →
        ∃ t, s'.registry.lastSeen? j = some t ∧ t.status = .failed := by
  have hnone : ∀ j ∈ ([] : List String), j ∉ started.map (·.job.id) →
      ∃ t, s'.registry.lastSeen? j = some t ∧ t.status = .failed :=
    fun _ hj => absurd hj List.not_mem_nil
  cases turn with
  | receives next | drains next =>
    refine ⟨[], ?_, List.Sublist.refl _, hnone⟩
    rw [next]
    rfl
  | @spawns job =>
    exact ⟨[job.id], rfl, List.Sublist.refl _, fun j hj hnot => absurd hj hnot⟩
  | stops | dismisses | proceeds | halts | acquires | withdraws | confirms | withholds | admits
  | givesBack | closes | empties | ends => exact ⟨[], rfl, List.Sublist.refl _, hnone⟩
  | @finishes ending left stopping _ done =>
    have hturn := Ending.turn done
    refine ⟨ending.holding, ?_, List.nil_sublist _, fun j hj _ =>
      hturn.failed hexcused.1 hunstarted j hj⟩
    rw [hturn.frame.1]
    cases left with
    | none => cases stopping <;> rfl
    | some ending' => rw [Option.elim_some, holding, holding, hturn.left_holding, List.nil_append]
  | @finishesDrained ending left _ done =>
    have hturn := Ending.turn done
    refine ⟨ending.holding, ?_, List.nil_sublist _, fun j hj _ =>
      hturn.failed hexcused.1 hunstarted j hj⟩
    rw [hturn.frame.1]
    cases left with
    | none => rfl
    | some ending' => rw [Option.elim_some, holding, holding, hturn.left_holding, List.nil_append]

/-- The jobs that were sent are those that the dispatcher let go of, the one it holds and those in
the queue, in this order. A job that it let go of has a runner, unless the task has failed, and
runners stand in the order of their jobs. -/
def State.Follows (s : State σ) (sent : List String) : Prop :=
  ∃ gone, sent = gone ++ (s.dispatcher.holding ++ s.shared.queue.map Job.id) ∧
    (s.runners.map (·.job.id)).Sublist gone ∧
    ∀ j ∈ gone, j ∉ s.runners.map (·.job.id) →
      ∃ t, s.shared.registry.lastSeen? j = some t ∧ t.status = .failed

namespace State.Follows

variable {s : State σ} {sent : List String} (h : s.Follows sent)
include h

/-- Whoever leaves the dispatcher and the runners' jobs alone may only send. -/
theorem of_advances {t : State σ} {jobs : List String} (hadvances : s.shared.Advances t.shared)
    (hdispatcher : t.dispatcher = s.dispatcher)
    (hrunners : t.runners.map (·.job.id) = s.runners.map (·.job.id))
    (hqueue : t.shared.queue.map Job.id = s.shared.queue.map Job.id ++ jobs) :
    t.Follows (sent ++ jobs) := by
  obtain ⟨gone, rfl, hsublist, hfailed⟩ := h
  refine ⟨gone, ?_, ?_, fun j hj hnot => ?_⟩
  · rw [hdispatcher, hqueue, List.append_assoc, List.append_assoc]
  · rw [hrunners]
    exact hsublist
  · rw [hrunners] at hnot
    obtain ⟨t, ht, hstatus⟩ := hfailed j hj hnot
    exact ⟨t, hadvances.ended j t ht (by rw [hstatus]; rfl), hstatus⟩

/-- What the dispatcher lets go of comes right behind all that it let go of before. -/
theorem dispatcher_turn {dispatcher : Dispatcher} {shared : Shared σ} {started : List Runner}
    (hsound : s.IsSound S) (hcustody : s.IsInCustody)
    (turn : Dispatcher.Turn S s.runners s.shared s.dispatcher shared dispatcher started) :
    State.Follows { s with
      shared := shared, dispatcher := dispatcher, runners := s.runners ++ started } sent := by
  obtain ⟨gone, rfl, hsublist, hfailed⟩ := h
  obtain ⟨more, hmore, hstarted, hended⟩ :=
    turn.lets_go hcustody.dispatcher hsound.areUnstarted_dispatcher
  have hadvances := turn.advances
  refine ⟨gone ++ more, ?_, ?_, fun j hj hnot => ?_⟩
  · rw [hmore, List.append_assoc]
  · rw [List.map_append]
    exact hsublist.append hstarted
  · rw [List.map_append, List.mem_append, not_or] at hnot
    -- What was let go of before stays failed; what is let go of now has just failed.
    rcases List.mem_append.mp hj with hgone | hnow
    · obtain ⟨t, ht, hstatus⟩ := hfailed j hgone hnot.1
      exact ⟨t, hadvances.ended j t ht (by rw [hstatus]; rfl), hstatus⟩
    · exact hended j hnow hnot.2

end State.Follows

/-- Whatever is done, jobs are let go of in the order in which they were sent. -/
theorem State.Follows.act {s : State σ} {sent : List String} (h : s.Follows sent)
    (hsound : s.IsSound S) (hcustody : s.IsInCustody) (a : Act) :
    (s.act S a).Follows (sent ++ s.sends a) := by
  have hturn := s.turn S a
  have hadvances := hsound.advances a
  generalize s.act S a = t at hturn hadvances ⊢
  cases hturn with
  | rests stuck =>
    rw [State.sends_of_stuck stuck, List.append_nil]
    exact h
  | requests | letsGo => exact h.of_advances hadvances rfl rfl (List.append_nil _).symm
  | call made turn =>
    refine h.of_advances hadvances rfl rfl ?_
    rw [State.sends, made]
    exact turn.queue
  | dispatcher turn =>
    have hturn := h.dispatcher_turn hsound hcustody turn
    exact (List.append_nil sent).symm ▸ hturn
  | runner started turn =>
    refine h.of_advances hadvances rfl (map_job_set started turn.job) ?_
    rw [turn.flags.1]
    exact (List.append_nil _).symm
  | worker started _ job _ =>
    exact h.of_advances hadvances rfl (map_job_set started job) (List.append_nil _).symm

theorem State.follows_run (S : Setting σ) (store : σ) (held : List String) (acts : List Act) :
    ((State.start S.limits store held).run S acts).Follows
      ((State.start S.limits store held).collect S State.sends acts) := by
  let start := State.start S.limits store held
  refine run_induction (P := fun acts s => s.Follows (start.collect S State.sends acts)) ?_
    (fun acts a h => ?_) acts
  · exact ⟨[], rfl, List.Sublist.refl _, nofun⟩
  · rw [collect_concat]
    exact h.act (isSound_run S store held acts) (isInCustody_run S store held acts) a

/-! ### Admission -/

/-- The call is to submit a task and has not returned. -/
def Call.isSubmitting : Call → Bool
  | readFailed _ | check .. | count .. | insert .. | send _ | refuse _ => true
  | _ => false

/-- Somebody has the job of a task that has not begun. -/
inductive State.Has (s : State σ) (j : String) : Prop
  | inCall (call : Call) (made : call ∈ s.calls) (submitting : call.isSubmitting = true)
      (job : j ∈ call.jobs)
  | inQueue (job : j ∈ s.shared.queue.map Job.id)
  | inDispatcher (job : j ∈ s.dispatcher.holding)
  | inRunner (r : Runner) (started : r ∈ s.runners) (job : r.job.id = j)
      (waiting : r.stage = .start)

/-- Somebody has the job of a pending task: the call that submits it, the queue, the dispatcher, or
a runner that has not begun. -/
theorem State.has_of_pending {s : State σ} (hsound : s.IsSound S) (hcustody : s.IsInCustody)
    {j : String} {t : Task} (ht : s.shared.registry.lastSeen? j = some t)
    (hpending : t.status = .pending) : s.Has j := by
  have hj := hcustody.pending j t ht hpending
  rw [State.jobs] at hj
  simp only [Multiset.mem_add] at hj
  rcases hj with ((hqueue | hdispatcher) | hcalls) | hrunners
  · exact .inQueue hqueue
  · rw [← Dispatcher.coe_holding] at hdispatcher
    exact .inDispatcher hdispatcher
  · obtain ⟨call, hcall, hjob⟩ := mem_sum_map.mp hcalls
    refine .inCall call hcall ?_ hjob
    cases call with
    | send job | refuse ending => rfl
    | announceCancelled ending id seen =>
      -- A call that cancels has failed the task already.
      have hnone : ending.jobs = 0 := hcustody.calls _ hcall
      rw [Call.jobs, hnone] at hjob
      exact absurd hjob (Multiset.notMem_zero j)
    | readFailed id | check source branch retryOf | count source branch retryOf
    | insert source branch retryOf | requestCancel id | failPending id seen | reread id seen
    | forget id | follow id | awaitEnd id | refuseFurther | signalStop | takeDispatcher
    | awaitDispatcher | done reply => exact absurd hjob (Multiset.notMem_zero j)
  · obtain ⟨r, hr, rfl⟩ := List.mem_map.mp hrunners
    obtain ⟨a, ha, hstands⟩ := hsound.stands hr
    cases (TaskRegistry.lastSeen?_of_record? ha).symm.trans ht
    exact .inRunner r hr rfl (hstands.stage_of_pending hpending)

/-- How tasks are admitted, when jobs were sent with the ids `sent`. -/
structure State.Admits (maxConcurrentTasks : Nat) (sent : List String) (s : State σ) : Prop where
  /-- A configuration that is accepted allows at least one task. -/
  processing_le : s.shared.registry.records.countP (·.task.status == .processing)
    ≤ max maxConcurrentTasks 1
  /-- Behind the jobs that are still held or queued are those that have been decided on. They have
  runners, which were started in this order, unless the tasks were cancelled or shut down. -/
  order : ∃ decided, sent = decided ++ (s.dispatcher.holding ++ s.shared.queue.map Job.id) ∧
    (s.runners.map (·.job.id)).Sublist decided ∧
    ∀ j ∈ decided, j ∉ s.runners.map (·.job.id) →
      ∃ t, s.shared.registry.lastSeen? j = some t ∧ s.shared.HasExcused j t
  pending : ∀ j t, s.shared.registry.lastSeen? j = some t → t.status = .pending → s.Has j
  ended : s.dispatcher = .ended → (∀ r ∈ s.runners, r.hasEnded = true) →
    (∀ call ∈ s.calls, call.isSubmitting = false) →
    ∀ a ∈ s.shared.registry.records, a.task.status.isTerminal = true

/-- Whatever happens, tasks are admitted in order and up to the limit, and none is lost. -/
theorem admission_fair (S : Setting σ) (store : σ) (held : List String) (acts : List Act) :
    ((State.start S.limits store held).run S acts).Admits S.limits.maxConcurrentTasks
      ((State.start S.limits store held).collect S State.sends acts) := by
  have hsound := State.isSound_run S store held acts
  have hcustody := State.isInCustody_run S store held acts
  have hfollows := State.follows_run S store held acts
  have hpermits := State.permits_run S store held acts
  set s := (State.start S.limits store held).run S acts
  have hpending : ∀ j t, s.shared.registry.lastSeen? j = some t → t.status = .pending → s.Has j :=
    fun j t ht => State.has_of_pending hsound hcustody ht
  refine ⟨?_, ?_, hpending, ?_⟩
  · rw [← hpermits]
    exact hsound.processing_le
  · obtain ⟨decided, hsent, hsublist, hfailed⟩ := hfollows
    refine ⟨decided, hsent, hsublist, fun j hj hnot => ?_⟩
    obtain ⟨t, ht, hstatus⟩ := hfailed j hj hnot
    exact ⟨t, ht, hcustody.ended j hnot t ht (by rw [hstatus]; rfl)⟩
  · intro hdispatcher hrunners hcalls a ha
    have hrecord := TaskRegistry.record?_of_mem hsound.nodup_ids ha
    have hseen := TaskRegistry.lastSeen?_of_record? hrecord
    cases hstatus : a.task.status with
    | completed | failed => rfl
    | pending =>
      cases hpending a.id a.task hseen hstatus with
      | inCall call hcall hsubmitting =>
        rw [hcalls call hcall] at hsubmitting
        cases hsubmitting
      | inQueue hjob =>
        have hexcused := hcustody.dispatcher
        rw [hdispatcher] at hexcused
        rw [hexcused.2] at hjob
        cases hjob
      | inDispatcher hjob =>
        rw [hdispatcher] at hjob
        cases hjob
      | inRunner r hr _ hwaiting =>
        have hended := hrunners r hr
        rw [Runner.hasEnded, hwaiting] at hended
        cases hended
    | processing =>
      obtain ⟨r, hr, _, hrunning⟩ := hsound.exists_runner ha hstatus
      rw [hrunners r hr] at hrunning
      cases hrunning

end CodeIndex.Scheduler
