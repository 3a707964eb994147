import CodeIndex.Proofs.Scheduler.Moves
/-!
# Excuses

A task that no runner was started for fails for one of two reasons only, which its error tells
(`Shared.Excuses`): its cancellation was requested, or the scheduler was shut down.

Wherever a call or the dispatcher stands, it has an excuse for what it is about to do
(`Call.IsExcused`, `Dispatcher.IsExcused`). In a turn it lets go of a job only by ending the task
with that excuse (`Shared.Attends`), and where it gets to is excused again.
-/

namespace CodeIndex.Scheduler

variable {σ : Type} {S : Setting σ} {s s' : Shared σ}

/-! ### Excuses -/

/-- A task may fail with this error although it never ran. -/
def Shared.Excuses (s : Shared σ) (j error : String) : Prop :=
  error = cancelled ∧ s.registry.isCancelled j = true ∨ error = shutDown ∧ s.shuttingDown = true

theorem Shared.Excuses.mono {j error : String} (h : s.Excuses j error) (hs : s.Advances s') :
    s'.Excuses j error :=
  h.imp (And.imp_right (hs.isCancelled j)) (And.imp_right hs.shuttingDown)

/-- The task has failed and the scheduler can tell why it never ran. -/
def Shared.HasExcused (s : Shared σ) (j : String) (t : Task) : Prop :=
  ∃ error, t.status = .failed ∧ t.error = some error ∧ s.Excuses j error

theorem Shared.HasExcused.mono {j : String} {t : Task} (h : s.HasExcused j t)
    (hs : s.Advances s') : s'.HasExcused j t := by
  obtain ⟨error, hstatus, herror, hexcuse⟩ := h
  exact ⟨error, hstatus, herror, hexcuse.mono hs⟩

/-- A task is only ended with an error that is excused. -/
def Ending.IsExcused (s : Shared σ) : Ending → Prop
  | settle id error => ∃ e, error = some e ∧ s.Excuses id e
  | _ => True

theorem Ending.IsExcused.mono {ending : Ending} (h : ending.IsExcused s) (hs : s.Advances s') :
    ending.IsExcused s' := by
  cases ending with
  | settle id error =>
    obtain ⟨e, he, hexcuse⟩ := h
    exact ⟨e, he, hexcuse.mono hs⟩
  | lookUp id | announce task | evict => trivial

/-- What has to hold for a call to be where it is. -/
def Call.IsExcused (s : Shared σ) : Call → Prop
  | refuse ending => ending.IsExcused s
  | failPending id _ => s.registry.isCancelled id = true
  | announceCancelled ending _ _ => ending.jobs = 0
  | signalStop => s.shuttingDown = true
  | _ => True

theorem Call.IsExcused.mono {call : Call} (h : call.IsExcused s) (hs : s.Advances s') :
    call.IsExcused s' := by
  cases call with
  | refuse ending => exact Ending.IsExcused.mono h hs
  | failPending id seen => exact hs.isCancelled id h
  | announceCancelled ending id seen => exact h
  | signalStop => exact hs.shuttingDown h
  | readFailed id | check source branch retryOf | count source branch retryOf
  | insert source branch retryOf | send job | requestCancel id | reread id seen | forget id
  | follow id | awaitEnd id | refuseFurther | takeDispatcher | awaitDispatcher
  | done reply => trivial

theorem Call.isExcused_of_isPlain {call : Call} (h : call.isPlain = true) : call.IsExcused s := by
  cases call <;> trivial

/-- What has to hold for the dispatcher to be where it is. It stops only when the scheduler shuts
down, and behind the closed queue nothing is left. -/
def Dispatcher.IsExcused (s : Shared σ) : Dispatcher → Prop
  | giveBack job error => s.Excuses job.id error
  | finish ending stopping => ending.IsExcused s ∧ (stopping = true → s.shuttingDown = true)
  | close => s.shuttingDown = true
  | drain => s.queueClosed = true
  | finishDrained ending => ending.IsExcused s ∧ s.queueClosed = true
  | awaitRunners | ended => s.queueClosed = true ∧ s.queue = []
  | _ => True

/-- Nothing enters a closed queue. -/
theorem Dispatcher.IsExcused.mono {dispatcher : Dispatcher} (h : dispatcher.IsExcused s)
    (hs : s.Advances s') (hqueue : s.queueClosed = true → s'.queue = s.queue) :
    dispatcher.IsExcused s' := by
  cases dispatcher with
  | giveBack job error => exact Shared.Excuses.mono h hs
  | finish ending stopping => exact ⟨h.1.mono hs, hs.shuttingDown ∘ h.2⟩
  | close => exact hs.shuttingDown h
  | drain => exact hs.queueClosed h
  | finishDrained ending => exact ⟨h.1.mono hs, hs.queueClosed h.2⟩
  | awaitRunners | ended => exact ⟨hs.queueClosed h.1, (hqueue h.1).trans h.2⟩
  | select | received job | acquire job | granted job | admitted job | spawn job => trivial

/-! ### Attending to tasks -/

/-- What a call or the dispatcher makes of the tasks while its own jobs change. -/
structure Shared.Attends (s s' : Shared σ) (before after : Multiset String) : Prop where
  advances : s.Advances s'
  /-- A task is only ended with an excuse. -/
  ended : ∀ j t, s'.registry.lastSeen? j = some t → t.status.isTerminal = true →
    s.registry.lastSeen? j = some t ∨ s'.HasExcused j t
  /-- The job of a pending task is not let go of. -/
  pending : ∀ j t, s'.registry.lastSeen? j = some t → t.status = .pending →
    j ∉ s'.jobs + after →
      (∃ t, s.registry.lastSeen? j = some t ∧ t.status = .pending) ∧ j ∉ s.jobs + before

namespace Shared.Attends

variable {before after : Multiset String}

/-- Tasks and jobs stay. -/
theorem of_keeps (hs : s.Advances s') (hregistry : s.registry.Keeps s'.registry)
    (hjobs : s.jobs + before ≤ s'.jobs + after) : s.Attends s' before after where
  advances := hs
  ended := by
    intro j t ht _
    rw [hregistry.lastSeen?] at ht
    exact Or.inl ht
  pending := by
    intro j t ht hpending hj
    rw [hregistry.lastSeen?] at ht
    exact ⟨⟨t, ht, hpending⟩, fun hmem => hj (Multiset.mem_of_le hjobs hmem)⟩

theorem of_same (hjobs : before ≤ after) : s.Attends s before after :=
  .of_keeps (.refl s) (.refl _) (add_le_add_right hjobs _)

/-- If somebody had every pending task before, then somebody has every pending task now. -/
theorem mem_of_pending {rest : Multiset String} (hs : s.Attends s' before after)
    (h : ∀ j t, s.registry.lastSeen? j = some t → t.status = .pending →
      j ∈ s.jobs + before + rest) {j : String} {t : Task}
    (ht : s'.registry.lastSeen? j = some t) (hpending : t.status = .pending) :
    j ∈ s'.jobs + after + rest := by
  by_contra hj
  have hhere : j ∉ s'.jobs + after := fun hmem => hj (Multiset.mem_add.mpr (Or.inl hmem))
  obtain ⟨⟨t', ht', hpending'⟩, hnot⟩ := hs.pending j t ht hpending hhere
  have hrest := (Multiset.mem_add.mp (h j t' ht' hpending')).resolve_left hnot
  exact hj (Multiset.mem_add.mpr (Or.inr hrest))

end Shared.Attends

/-- The tasks with these jobs have not started. -/
def Shared.AreUnstarted (s : Shared σ) (jobs : Multiset String) : Prop :=
  ∀ j ∈ jobs, ∃ a, s.registry.record? j = some a ∧ a.IsUnstarted

/-- A task that has not started is ended by settling it, whoever ends it first. -/
theorem Ending.Turn.settled {id error : String} {left : Option Ending}
    (turn : Ending.Turn S s (.settle id (some error)) s' left)
    (hunstarted : s.AreUnstarted {id}) :
    ∃ t, s'.registry.lastSeen? id = some t ∧ t.status = .failed := by
  cases turn with
  | settles moves =>
    obtain ⟨_, u, _, _, hu, hstatus, _⟩ := moves.moved
    exact ⟨u, hu, hstatus⟩
  | stays stuck =>
    obtain ⟨a, ha, hpending | hfailed⟩ := hunstarted id (Multiset.mem_singleton_self id)
    · -- A pending task is found and may fail.
      have hcan := stuck a.task (TaskRegistry.get?_of_record? ha hpending.2)
      rw [hpending.1] at hcan
      cases hcan
    · exact ⟨a.task, TaskRegistry.lastSeen?_of_record? ha, hfailed⟩

/-- The end of a task lets go of its job, and by then the task has ended with the excuse: if it was
not moved now, somebody else has ended it. -/
theorem Ending.Turn.attends {ending : Ending} {left : Option Ending}
    (turn : Ending.Turn S s ending s' left) (hexcused : ending.IsExcused s)
    (hunstarted : s.AreUnstarted ending.jobs) : s.Attends s' ending.jobs 0 := by
  have hsettled : ∀ {id : String} {error : Option String}, ending = .settle id error →
      ∀ j t, s'.registry.lastSeen? j = some t → t.status = .pending → j ≠ id := by
    rintro id error rfl j t ht hpending rfl
    obtain ⟨e, rfl, _⟩ := hexcused
    obtain ⟨u, hu, hfailed⟩ := turn.settled hunstarted
    cases ht.symm.trans hu
    rw [hfailed] at hpending
    cases hpending
  have hadvances := turn.advances
  cases turn with
  | @settles id error r moves =>
    obtain ⟨e, rfl, hexcuse⟩ := hexcused
    refine ⟨hadvances, fun j t ht _ => ?_, fun j t ht hpending hj => ?_⟩
    · rcases moves.back ht with hsame | ⟨rfl, hstatus, u, _, _, herror⟩
      · exact Or.inl hsame
      · exact Or.inr ⟨e, hstatus, herror, hexcuse.mono hadvances⟩
    · have hne := hsettled rfl j t ht hpending
      have hold : s.registry.lastSeen? j = some t := (moves.others j hne).symm.trans ht
      have hnotQueued : j ∉ s.jobs := fun hmem => hj (Multiset.mem_add.mpr (Or.inl hmem))
      refine ⟨⟨t, hold, hpending⟩, fun hmem => ?_⟩
      rcases Multiset.mem_add.mp hmem with hmem | hmem
      · exact hnotQueued hmem
      · exact hne (Multiset.mem_singleton.mp hmem)
  | @stays id error stuck =>
    refine ⟨hadvances, fun j t ht _ => Or.inl ht, fun j t ht hpending hj => ?_⟩
    have hne := hsettled rfl j t ht hpending
    refine ⟨⟨t, ht, hpending⟩, fun hmem => ?_⟩
    rcases Multiset.mem_add.mp hmem with hmem | hmem
    · exact hj (Multiset.mem_add.mpr (Or.inl hmem))
    · exact hne (Multiset.mem_singleton.mp hmem)
  | finds found | misses gone => exact .of_same (le_refl _)
  | announces => exact .of_keeps hadvances (.refl _) (le_refl _)
  | evicts keeps => exact .of_keeps hadvances keeps (le_refl _)

/-- What is left to do at the end of a task needs no excuse any more. -/
theorem Ending.Turn.left_jobs {ending : Ending} {left : Option Ending}
    (turn : Ending.Turn S s ending s' left) :
    ∀ ending', left = some ending' → ending'.jobs = 0 := by
  rintro ending' rfl
  cases turn <;> rfl

theorem Ending.isExcused_of_jobs {ending : Ending} (h : ending.jobs = 0) : ending.IsExcused s := by
  cases ending with
  | settle id error => exact absurd h (Multiset.singleton_ne_zero id)
  | lookUp id | announce task | evict => trivial

/-! ### Calls -/

/-- A call hands the job that it has inserted on to the queue, or fails its task with an excuse. -/
theorem Call.Turn.attends {call call' : Call} (turn : Call.Turn S s call s' call')
    (hnew : idOf s.issued ∉ s.registry.ids) (hexcused : call.IsExcused s)
    (hunstarted : s.AreUnstarted call.jobs) : s.Attends s' call.jobs call'.jobs := by
  have hadvances := turn.advances hnew
  cases turn with
  | reads before after =>
    have hbefore : call.jobs = 0 := by cases call <;> first | rfl | cases before
    rw [hbefore]
    exact .of_same (Multiset.zero_le _)
  | counts below => exact .of_same (le_refl _)
  | @inserts source branch retryOf =>
    have hseen := TaskRegistry.lastSeen?_insert (r := s.registry)
      (.submitted (idOf s.issued) source branch retryOf S.now)
    refine ⟨hadvances, fun j t ht hended => ?_, fun j t ht hpending hj => ?_⟩
    · rw [hseen] at ht
      split at ht
      · cases ht
        cases hended
      · exact Or.inl ht
    · have hne : idOf s.issued ≠ j := by
        rintro rfl
        exact hj (Multiset.mem_add.mpr (Or.inr (Multiset.mem_singleton_self _)))
      rw [hseen] at ht
      split at ht
      · exact absurd ‹_› hne
      · refine ⟨⟨t, ht, hpending⟩, fun hmem => hj (Multiset.mem_add.mpr (Or.inl ?_))⟩
        exact (Multiset.mem_add.mp hmem).resolve_right (Multiset.notMem_zero j)
  | @sends job isOpen =>
    refine .of_keeps hadvances (.refl _) ?_
    rw [Shared.jobs_push]
    exact (add_zero _).ge
  | returns closed => exact .of_same (le_refl _)
  | refuses turn next =>
    rw [next, jobs_refuse turn.left_jobs]
    exact turn.attends hexcused hunstarted
  | cancels accepted =>
    exact .of_keeps hadvances (TaskRegistry.keeps_requestCancel accepted) (le_refl _)
  | @fails id r seen moves =>
    refine ⟨hadvances, fun j t ht _ => ?_, fun j t ht hpending hj => ?_⟩
    · rcases moves.back ht with hsame | ⟨rfl, hstatus, u, _, _, herror⟩
      · exact Or.inl hsame
      · refine Or.inr ⟨cancelled, hstatus, herror, Or.inl ⟨rfl, ?_⟩⟩
        exact hadvances.isCancelled j hexcused
    · rcases moves.back ht with hsame | ⟨_, hstatus, _⟩
      · exact ⟨⟨t, hsame, hpending⟩, hj⟩
      · rw [hstatus] at hpending
        cases hpending
  | leaves => exact .of_same (le_refl _)
  | announces turn next =>
    rw [next, jobs_announceCancelled turn.left_jobs]
    exact turn.attends (Ending.isExcused_of_jobs hexcused) hunstarted
  | forgets keeps => exact .of_keeps hadvances keeps (le_refl _)
  | refusesFurther | signals | takes => exact .of_keeps hadvances (.refl _) (le_refl _)

/-- Where a call gets to is excused again. -/
theorem Call.Turn.isExcused {call call' : Call} (turn : Call.Turn S s call s' call')
    (hclosed : s.queueClosed = true → s.shuttingDown = true) : call'.IsExcused s' := by
  cases turn with
  | reads before after => exact Call.isExcused_of_isPlain after
  | counts below | inserts | sends isOpen | leaves | forgets keeps | signals | takes => trivial
  | returns closed => exact ⟨shutDown, rfl, Or.inr ⟨rfl, hclosed closed⟩⟩
  | @refuses ending left _ _ ending_turn next =>
    rw [next]
    cases left with
    | none => trivial
    | some ending' => exact Ending.isExcused_of_jobs (ending_turn.left_jobs _ rfl)
  | cancels accepted => exact (TaskRegistry.requestCancel_eq_ok accepted).2.2
  | fails moves => rfl
  | @announces ending left id seen _ _ ending_turn next =>
    rw [next]
    cases left with
    | none => trivial
    | some ending' => exact ending_turn.left_jobs _ rfl
  | refusesFurther => rfl

/-- Nothing enters a closed queue: who sends has found it open. -/
theorem Call.Turn.queue_of_closed {call call' : Call} (turn : Call.Turn S s call s' call')
    (hclosed : s.queueClosed = true) : s'.queue = s.queue := by
  cases turn with
  | sends isOpen =>
    rw [hclosed] at isOpen
    cases isOpen
  | refuses turn | announces turn => exact turn.frame.1
  | reads | counts | inserts | returns | cancels | fails | leaves | forgets | refusesFurther
  | signals | takes => rfl

/-- What a call does to the flags: it leaves the queue open or closed, and gives the signal to stop
only when the scheduler refuses submissions already. -/
theorem Call.Turn.flags {call call' : Call} (turn : Call.Turn S s call s' call')
    (hexcused : call.IsExcused s) :
    (s.shuttingDown = true → s'.shuttingDown = true) ∧
      (s'.stopSignal = true → s.stopSignal = true ∨ s.shuttingDown = true) ∧
      s'.queueClosed = s.queueClosed := by
  cases turn with
  | refuses turn | announces turn =>
    obtain ⟨_, _, _, hshutting, hclosed, hstop⟩ := turn.frame
    rw [hshutting, hclosed, hstop]
    exact ⟨id, Or.inl, rfl⟩
  | refusesFurther => exact ⟨fun _ => rfl, Or.inl, rfl⟩
  | signals => exact ⟨id, fun _ => Or.inr hexcused, rfl⟩
  | reads | counts | inserts | sends | returns | cancels | fails | leaves | forgets | takes =>
    exact ⟨id, Or.inl, rfl⟩

/-! ### The dispatcher -/

section Turns

variable {dispatcher dispatcher' : Dispatcher} {runners started : List Runner}
  (turn : Dispatcher.Turn S runners s dispatcher s' dispatcher' started)
  (hexcused : dispatcher.IsExcused s)
include turn hexcused

/-- The dispatcher keeps the jobs of pending tasks or hands them to runners. -/
theorem Dispatcher.Turn.attends (hunstarted : s.AreUnstarted dispatcher.jobs) :
    s.Attends s' dispatcher.jobs (dispatcher'.jobs + runnerJobs started) := by
  have hadvances := turn.advances
  cases turn with
  | receives next | drains next =>
    refine .of_keeps hadvances (.refl _) ?_
    exact (add_zero _).le.trans (Shared.jobs_pop next).ge
  | stops | halts | acquires | givesBack | closes =>
    exact .of_keeps hadvances (.refl _) (le_refl _)
  | dismisses | proceeds | withdraws | confirms | withholds | admits | spawns | empties | ends =>
    exact .of_same (le_refl _)
  | finishes done =>
    rw [jobs_finish (Ending.turn done).left_jobs]
    exact (Ending.turn done).attends hexcused.1 hunstarted
  | finishesDrained done =>
    rw [jobs_finishDrained (Ending.turn done).left_jobs]
    exact (Ending.turn done).attends hexcused.1 hunstarted

/-- Where the dispatcher gets to is excused again. -/
theorem Dispatcher.Turn.isExcused (hstop : s.stopSignal = true → s.shuttingDown = true)
    (hclosed : s.queueClosed = true → s.shuttingDown = true) : dispatcher'.IsExcused s' := by
  have hadvances := turn.advances
  cases turn with
  | stops signal => exact hstop signal
  | receives | proceeds | acquires | confirms | admits | spawns => trivial
  | dismisses isCancelled =>
    exact ⟨⟨cancelled, rfl, Or.inl ⟨rfl, isCancelled⟩⟩, fun h => absurd h Bool.false_ne_true⟩
  | halts signal =>
    have hshutting := hstop signal
    exact ⟨⟨shutDown, rfl, Or.inr ⟨rfl, hshutting⟩⟩, fun _ => hshutting⟩
  | withdraws isCancelled => exact Or.inl ⟨rfl, isCancelled⟩
  | withholds shutting => exact Or.inr ⟨rfl, shutting⟩
  | @givesBack job error =>
    -- The excuse for giving the permit back is the one for ending the task.
    have hexcuse := Shared.Excuses.mono hexcused hadvances
    exact ⟨⟨error, rfl, hexcuse⟩, fun h => absurd h Bool.false_ne_true⟩
  | @finishes ending left stopping _ done =>
    have hshutting := hadvances.shuttingDown ∘ hexcused.2
    cases left with
    | none =>
      cases stopping with
      | false => trivial
      | true => exact hshutting rfl
    | some ending' =>
      exact ⟨Ending.isExcused_of_jobs ((Ending.turn done).left_jobs _ rfl), hshutting⟩
  | closes => rfl
  | drains => exact ⟨⟨shutDown, rfl, Or.inr ⟨rfl, hclosed hexcused⟩⟩, hexcused⟩
  | empties empty => exact ⟨hexcused, empty⟩
  | @finishesDrained ending left _ done =>
    have hdrained := hadvances.queueClosed hexcused.2
    cases left with
    | none => exact hdrained
    | some ending' =>
      exact ⟨Ending.isExcused_of_jobs ((Ending.turn done).left_jobs _ rfl), hdrained⟩
  | ends => exact hexcused

/-- What the dispatcher does to the flags: it takes the signal to stop, and closes the queue when
the scheduler shuts down. -/
theorem Dispatcher.Turn.flags :
    s'.shuttingDown = s.shuttingDown ∧ (s'.stopSignal = true → s.stopSignal = true) ∧
      (s'.queueClosed = true → s.queueClosed = true ∨ s.shuttingDown = true) := by
  cases turn with
  | stops | halts => exact ⟨rfl, fun h => Bool.noConfusion h, Or.inl⟩
  | closes => exact ⟨rfl, id, fun _ => Or.inr hexcused⟩
  | finishes done | finishesDrained done =>
    obtain ⟨_, _, _, hshutting, hclosed, hstop⟩ := (Ending.turn done).frame
    rw [hshutting, hclosed, hstop]
    exact ⟨rfl, id, Or.inl⟩
  | receives | dismisses | proceeds | acquires | withdraws | confirms | withholds | admits | spawns
  | givesBack | drains | empties | ends => exact ⟨rfl, id, Or.inl⟩

end Turns

end CodeIndex.Scheduler
