import CodeIndex.Proofs.Scheduler.Excuses
/-!
# Who has a pending task

A pending task is never lost: its job stays with somebody (`State.jobs`) until the task has a runner
or fails with an excuse. `State.IsInCustody` says so of a state, together with what calls and the
dispatcher rely on. Every act keeps it: calls and the dispatcher because of the way they attend to
tasks (`Shared.Attends`), a runner because it touches no task but its own.
-/

namespace CodeIndex.Scheduler

variable {σ : Type} {S : Setting σ} {s s' : Shared σ}

/-! ### All states -/

/-- No pending task is lost, and tasks that never ran have failed with an excuse. -/
structure State.IsInCustody (s : State σ) : Prop where
  calls : ∀ call ∈ s.calls, call.IsExcused s.shared
  dispatcher : s.dispatcher.IsExcused s.shared
  stopSignal : s.shared.stopSignal = true → s.shared.shuttingDown = true
  queueClosed : s.shared.queueClosed = true → s.shared.shuttingDown = true
  pending : ∀ j t, s.shared.registry.lastSeen? j = some t → t.status = .pending → j ∈ s.jobs
  ended : ∀ j ∉ runnerJobs s.runners, ∀ t, s.shared.registry.lastSeen? j = some t →
    t.status.isTerminal = true → s.shared.HasExcused j t

/-- A sum of multisets has what one of them has. -/
theorem mem_sum_map {α β : Type} {f : α → Multiset β} {xs : List α} {y : β} :
    y ∈ (xs.map f).sum ↔ ∃ x ∈ xs, y ∈ f x := by
  induction xs with
  | nil => simp
  | cons x xs ih => simp [ih]

/-- Jobs outside the runners belong to tasks that have not started. -/
theorem State.IsSound.areUnstarted {s : State σ} (h : s.IsSound S) {jobs : Multiset String}
    (hjobs : jobs + runnerJobs s.runners ≤ s.jobs) : s.shared.AreUnstarted jobs := by
  intro j hj
  have hnodup := Multiset.nodup_of_le hjobs h.nodup_jobs
  have hnobody : j ∉ runnerJobs s.runners :=
    Multiset.disjoint_left.mp (Multiset.nodup_add.mp hnodup).2.2 hj
  have hmem : j ∈ s.jobs :=
    Multiset.mem_of_le hjobs (Multiset.mem_add.mpr (Or.inl hj))
  obtain ⟨a, ha⟩ := h.exists_record? hmem
  exact ⟨a, ha, h.isUnstarted hnobody ha⟩

/-- The dispatcher only has jobs of tasks that have not started. -/
theorem State.IsSound.areUnstarted_dispatcher {s : State σ} (h : s.IsSound S) :
    s.shared.AreUnstarted s.dispatcher.jobs := by
  refine h.areUnstarted (add_le_add_left ?_ _)
  exact (Multiset.le_add_left _ _).trans (Multiset.le_add_right _ _)

/-- At the beginning there are no tasks. -/
theorem State.isInCustody_start (limits : Config.Pipeline) (store : σ) (held : List String) :
    (State.start limits store held).IsInCustody where
  calls := by
    intro call hcall
    cases hcall
  dispatcher := trivial
  stopSignal := fun h => nomatch h
  queueClosed := fun h => nomatch h
  pending := by
    intro j t ht
    cases ht
  ended := by
    intro j _ t ht
    cases ht

namespace State.IsInCustody

variable {s : State σ} (h : s.IsInCustody) (hsound : s.IsSound S)
include h

/-- A request touches no task, and what it does first needs no excuse. -/
theorem request (r : Request) : (s.request r).IsInCustody where
  calls := by
    intro call hcall
    rcases List.mem_append.mp hcall with hold | hnew
    · exact h.calls call hold
    · rw [List.mem_singleton.mp hnew]
      cases r <;> trivial
  dispatcher := h.dispatcher
  stopSignal := h.stopSignal
  queueClosed := h.queueClosed
  pending := by
    intro j t ht hpending
    have hmem := h.pending j t ht hpending
    simp only [State.jobs, State.request, List.map_append, List.sum_append,
      Multiset.mem_add] at hmem ⊢
    tauto
  ended := h.ended

/-- A source that is let go of changes nothing for the tasks. -/
theorem letGo (source : String) : (s.letGo source).IsInCustody where
  calls := by
    intro call hcall
    exact (h.calls call hcall).mono (.of_keeps (.refl _) rfl rfl)
  dispatcher := h.dispatcher.mono (.of_keeps (.refl _) rfl rfl) fun _ => rfl
  stopSignal := h.stopSignal
  queueClosed := h.queueClosed
  pending := h.pending
  ended := by
    intro j hj t ht hended
    exact (h.ended j hj t ht hended).mono (.of_keeps (.refl _) rfl rfl)

/-- A runner or its worker leaves all tasks but its own alone. -/
theorem own {i : Nat} {r r' : Runner} {shared : Shared σ} (hr : s.runners[i]? = some r)
    (hjob : r'.job = r.job) (hadvances : s.shared.Advances shared)
    (hflags : shared.queue = s.shared.queue ∧ shared.shuttingDown = s.shared.shuttingDown ∧
      shared.queueClosed = s.shared.queueClosed ∧ shared.stopSignal = s.shared.stopSignal)
    (hothers : ∀ j, j ≠ r.job.id →
      shared.registry.lastSeen? j = s.shared.registry.lastSeen? j) :
    State.IsInCustody { s with shared := shared, runners := s.runners.set i r' } := by
  obtain ⟨hqueue, hshutting, hclosed, hstop⟩ := hflags
  have hsame := runnerJobs_set hr hjob
  exact {
    calls := fun call hcall => (h.calls call hcall).mono hadvances
    dispatcher := h.dispatcher.mono hadvances fun _ => hqueue
    stopSignal := by
      rw [hshutting, hstop]
      exact h.stopSignal
    queueClosed := by
      rw [hshutting, hclosed]
      exact h.queueClosed
    pending := by
      intro j t ht hpending
      have hjobs : State.jobs { s with shared := shared, runners := s.runners.set i r' }
          = s.jobs := by
        simp only [State.jobs, Shared.jobs, hqueue, hsame]
      rw [hjobs]
      -- The task of the runner is with the runner; the others are where they were.
      by_cases hj : j = r.job.id
      · rw [hj]
        exact Multiset.mem_of_le (runnerJobs_le s) (mem_runnerJobs (List.mem_of_getElem? hr))
      · rw [hothers j hj] at ht
        exact h.pending j t ht hpending
    ended := by
      intro j hj t ht hended
      rw [hsame] at hj
      have hne : j ≠ r.job.id := by
        rintro rfl
        exact hj (mem_runnerJobs (List.mem_of_getElem? hr))
      rw [hothers j hne] at ht
      exact (h.ended j hj t ht hended).mono hadvances }

include hsound

/-- A call attends to the tasks in its turn. Its jobs are not with a runner, so their tasks have not
started. -/
theorem attends_call {i : Nat} {call call' : Call} {shared : Shared σ}
    (hcall : s.calls[i]? = some call) (turn : Call.Turn S s.shared call shared call') :
    s.shared.Attends shared call.jobs call'.jobs := by
  have hmem := List.mem_of_getElem? hcall
  have hle : call.jobs ≤ (s.calls.map Call.jobs).sum :=
    List.le_sum_of_mem (List.mem_map_of_mem hmem)
  refine turn.attends hsound.idOf_not_mem (h.calls call hmem) (hsound.areUnstarted ?_)
  exact add_le_add_left (hle.trans (Multiset.le_add_left _ _)) _

/-- The dispatcher attends to the tasks in its turn. -/
theorem attends_dispatcher {dispatcher : Dispatcher} {shared : Shared σ} {started : List Runner}
    (turn : Dispatcher.Turn S s.runners s.shared s.dispatcher shared dispatcher started) :
    s.shared.Attends shared s.dispatcher.jobs (dispatcher.jobs + runnerJobs started) :=
  turn.attends h.dispatcher hsound.areUnstarted_dispatcher

/-- After the turn of a call every pending task still has somebody. Nothing has entered a closed
queue, and who has signalled the dispatcher to stop has refused submissions before. -/
theorem call {i : Nat} {call call' : Call} {shared : Shared σ} (hcall : s.calls[i]? = some call)
    (turn : Call.Turn S s.shared call shared call') :
    State.IsInCustody { s with shared := shared, calls := s.calls.set i call' } := by
  have hmem := List.mem_of_getElem? hcall
  have hattends := h.attends_call hsound hcall turn
  obtain ⟨hshutting, hstop, hclosed⟩ := turn.flags (h.calls call hmem)
  exact {
    calls := by
      intro other hother
      rcases List.mem_or_eq_of_mem_set hother with hold | rfl
      · exact (h.calls other hold).mono hattends.advances
      · exact turn.isExcused h.queueClosed
    dispatcher := h.dispatcher.mono hattends.advances turn.queue_of_closed
    stopSignal := fun hsignal => hshutting ((hstop hsignal).elim h.stopSignal id)
    queueClosed := by
      rw [hclosed]
      exact hshutting ∘ h.queueClosed
    pending := by
      intro j t ht hpending
      -- Of all places only those of this call and of the queue change.
      obtain ⟨rest, hsum, hset⟩ := exists_sum_rest Call.jobs hcall
      have hbefore : s.jobs
          = s.shared.jobs + call.jobs + (s.dispatcher.jobs + rest + runnerJobs s.runners) := by
        simp only [State.jobs, hsum]
        abel
      have hafter : State.jobs { s with shared := shared, calls := s.calls.set i call' }
          = shared.jobs + call'.jobs + (s.dispatcher.jobs + rest + runnerJobs s.runners) := by
        simp only [State.jobs, hset]
        abel
      have hhad := h.pending
      rw [hbefore] at hhad
      rw [hafter]
      exact hattends.mem_of_pending hhad ht hpending
    ended := by
      intro j hj t ht hended
      rcases hattends.ended j t ht hended with hsame | hexcused
      · exact (h.ended j hj t hsame hended).mono hattends.advances
      · exact hexcused }

/-- After the turn of the dispatcher every pending task still has somebody: it has handed its job to
the runner that it started, or ended the task with the excuse it had. -/
theorem dispatcher_turn {dispatcher : Dispatcher} {shared : Shared σ} {started : List Runner}
    (turn : Dispatcher.Turn S s.runners s.shared s.dispatcher shared dispatcher started) :
    State.IsInCustody
      { s with shared := shared, dispatcher := dispatcher, runners := s.runners ++ started } := by
  have hattends := h.attends_dispatcher hsound turn
  obtain ⟨hshutting, hstop, hclosed⟩ := turn.flags h.dispatcher
  exact {
    calls := fun call hcall => (h.calls call hcall).mono hattends.advances
    dispatcher := turn.isExcused h.dispatcher h.stopSignal h.queueClosed
    stopSignal := by
      rw [hshutting]
      exact h.stopSignal ∘ hstop
    queueClosed := by
      rw [hshutting]
      exact fun hq => (hclosed hq).elim h.queueClosed id
    pending := by
      intro j t ht hpending
      have hbefore : s.jobs = s.shared.jobs + s.dispatcher.jobs
          + ((s.calls.map Call.jobs).sum + runnerJobs s.runners) := by
        simp only [State.jobs]
        abel
      have hafter : State.jobs { s with
            shared := shared, dispatcher := dispatcher, runners := s.runners ++ started }
          = shared.jobs + (dispatcher.jobs + runnerJobs started)
            + ((s.calls.map Call.jobs).sum + runnerJobs s.runners) := by
        simp only [State.jobs, runnerJobs_append]
        abel
      have hhad := h.pending
      rw [hbefore] at hhad
      rw [hafter]
      exact hattends.mem_of_pending hhad ht hpending
    ended := by
      intro j hj t ht hended
      -- A task without a runner now had none before.
      have hold : j ∉ runnerJobs s.runners := by
        intro hmem
        refine hj ?_
        rw [runnerJobs_append]
        exact Multiset.mem_add.mpr (Or.inl hmem)
      rcases hattends.ended j t ht hended with hsame | hexcused
      · exact (h.ended j hold t hsame hended).mono hattends.advances
      · exact hexcused }

/-- No act loses a pending task. -/
theorem act (a : Act) : (s.act S a).IsInCustody := by
  have hturn := s.turn S a
  have hadvances := hsound.advances a
  generalize s.act S a = t at hturn hadvances ⊢
  cases hturn with
  | rests => exact h
  | requests r => exact h.request r
  | letsGo source => exact h.letGo source
  | call made turn => exact h.call hsound made turn
  | dispatcher turn => exact h.dispatcher_turn hsound turn
  | runner started turn =>
    have hstands := hsound.stands (List.mem_of_getElem? started)
    exact h.own started turn.job hadvances turn.flags fun _ => turn.others hstands
  | worker started processed job stage =>
    exact h.own started job hadvances ⟨rfl, rfl, rfl, rfl⟩ fun _ _ => rfl

end State.IsInCustody

/-- Whatever happens, no pending task is lost. -/
theorem State.isInCustody_run (S : Setting σ) (store : σ) (held : List String)
    (acts : List Act) : ((State.start S.limits store held).run S acts).IsInCustody :=
  State.run_induction (P := fun _ s => s.IsInCustody)
    (State.isInCustody_start S.limits store held)
    (fun acts a h => h.act (State.isSound_run S store held acts) a) acts

end CodeIndex.Scheduler
