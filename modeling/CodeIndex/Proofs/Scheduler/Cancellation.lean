import CodeIndex.Proofs.Scheduler.Custody
/-!
# Cancellation

Only the runner of a task completes it, in the turn after it has checked for the last time whether
the task was cancelled (`State.completed_act`). So a cancellation that is accepted while no runner
stands between these two turns is never lost, and one that is accepted there is lost as soon as the
runner takes its turn (`cancellation_kept_iff`).
-/

namespace CodeIndex.Scheduler

variable {σ : Type} {S : Setting σ} {s s' : Shared σ}

/-! ### Who completes a task -/

/-- The runner has found its task not cancelled and is about to complete it. -/
def Runner.isCompleting (r : Runner) : Bool :=
  match r.stage with
  | .finish (.settle _ none) => true
  | _ => false

theorem Runner.isCompleting_of_stage {r : Runner} {id : String}
    (hstage : r.stage = .finish (.settle id none)) : r.isCompleting = true := by
  rw [isCompleting, hstage]

theorem Runner.isCompleting_of_isWorking {r : Runner} (h : r.stage.isWorking = true) :
    r.isCompleting = false := by
  rw [isCompleting]
  cases hstage : r.stage with
  | finish ending =>
    rw [hstage] at h
    cases h
  | start | enumerate | expect snapshot | nextBatch later | feed files sent later
  | await remaining later | noteFile path remaining later | record outcome remaining later
  | closeFiles | awaitWorkers | check | giveBack | ended => rfl

/-- A runner that is about to complete its task was not, unless the task was not cancelled. -/
theorem Runner.Turn.isCompleting {r r' : Runner} (turn : Runner.Turn S s r s' r')
    (hcompleting : r'.isCompleting = true) : s.registry.isCancelled r.job.id = false := by
  have hworks : r'.stage.isWorking = true → s.registry.isCancelled r.job.id = false := by
    intro hworking
    rw [isCompleting_of_isWorking hworking] at hcompleting
    cases hcompleting
  cases turn with
  | begins | declines | givesBack => cases hcompleting
  | works _ _ after | updates _ _ after => exact hworks after
  | @concludes error _ checked =>
    cases error with
    | none => exact checked rfl
    | some error => cases hcompleting
  | @finishes ending left _ _ _ turn next =>
    rw [next] at hcompleting
    -- What is left to do at an end is not to settle it.
    cases turn <;> cases hcompleting

/-- What completes in the turn of a runner is its own task. -/
theorem Runner.Turn.completed {r r' : Runner} {a : TaskRecord} {j : String} {t : Task}
    (turn : Runner.Turn S s r s' r') (ha : s.registry.record? r.job.id = some a)
    (hstands : r.Stands a) (ht : s'.registry.lastSeen? j = some t)
    (hcompleted : t.status = .completed) :
    s.registry.lastSeen? j = some t ∨ r.job.id = j ∧ r.isCompleting = true := by
  by_cases hj : j = r.job.id
  · subst hj
    cases turn with
    | begins _ moves =>
      rcases moves.back ht with hsame | ⟨_, hstatus, _⟩
      · exact Or.inl hsame
      · cases hcompleted.symm.trans hstatus
    | declines | works | concludes | givesBack => exact Or.inl ht
    | @updates f _ _ before _ same =>
      -- While the runner works, its task is processed.
      have hrunning := hstands.isRunning before
      have hf : ∀ u : Task, u.id = r.job.id → (f u).id = r.job.id :=
        fun u hu => (same u).1.trans hu
      cases ht.symm.trans (TaskRegistry.lastSeen?_update_self hf ha hrunning.2)
      cases hcompleted.symm.trans ((same a.task).2.1.trans hrunning.1)
    | finishes stage turn =>
      cases turn with
      | @settles id error registry moves =>
        rcases moves.back ht with hsame | ⟨_, hstatus, _⟩
        · exact Or.inl hsame
        · cases error with
          | none => exact Or.inr ⟨rfl, isCompleting_of_stage stage⟩
          | some error => cases hcompleted.symm.trans hstatus
      | stays | finds | misses | announces => exact Or.inl ht
      | evicts keeps => exact Or.inl ((keeps.lastSeen? _).symm.trans ht)
  · rw [turn.others ⟨a, ha, hstands⟩ hj] at ht
    exact Or.inl ht

/-- Who failed has not completed. -/
theorem Shared.Attends.completed {before after : Multiset String} (h : s.Attends s' before after)
    {j : String} {t : Task} (ht : s'.registry.lastSeen? j = some t)
    (hcompleted : t.status = .completed) : s.registry.lastSeen? j = some t := by
  rcases h.ended j t ht (by rw [hcompleted]; rfl) with hsame | ⟨_, hfailed, _⟩
  · exact hsame
  · cases hcompleted.symm.trans hfailed

/-- A task completes in the turn of its own runner, after the last check. -/
theorem State.completed_act {s : State σ} (hsound : s.IsSound S) (hcustody : s.IsInCustody)
    {a : Act} {j : String} {t : Task} (ht : (s.act S a).shared.registry.lastSeen? j = some t)
    (hcompleted : t.status = .completed) :
    s.shared.registry.lastSeen? j = some t ∨
      ∃ r ∈ s.runners, r.job.id = j ∧ r.isCompleting = true := by
  have hturn := s.turn S a
  generalize s.act S a = s' at hturn ht
  cases hturn with
  | rests | requests | letsGo | worker => exact Or.inl ht
  | call made turn =>
    have hattends := hcustody.attends_call hsound made turn
    exact Or.inl (hattends.completed ht hcompleted)
  | dispatcher turn =>
    have hattends := hcustody.attends_dispatcher hsound turn
    exact Or.inl (hattends.completed ht hcompleted)
  | runner started turn =>
    have hmem := List.mem_of_getElem? started
    obtain ⟨a, ha, hstands⟩ := hsound.stands hmem
    exact (turn.completed ha hstands ht hcompleted).imp_right fun h => ⟨_, hmem, h⟩

/-- A runner that is about to complete its task does so. -/
theorem State.IsSound.completes {s : State σ} (hsound : s.IsSound S) {k : Nat} {r : Runner}
    (hr : s.runners[k]? = some r) (hcompleting : r.isCompleting = true) :
    ∃ t, (s.act S (.move (.runner k))).shared.registry.lastSeen? r.job.id = some t ∧
      t.status = .completed := by
  obtain ⟨id, hstage⟩ : ∃ id, r.stage = .finish (.settle id none) := by
    rw [Runner.isCompleting] at hcompleting
    split at hcompleting
    · exact ⟨_, ‹_›⟩
    · cases hcompleting
  obtain ⟨a, ha, hstands⟩ := hsound.stands (List.mem_of_getElem? hr)
  obtain ⟨hrunning, rfl⟩ := hstands.of_settle hstage
  have hturn := s.turn S (.move (.runner k))
  generalize s.act S (.move (.runner k)) = s' at hturn ⊢
  cases hturn with
  | rests stuck =>
    -- The end of a task never has to wait.
    generalize hend : (Ending.settle r.job.id none).step S s.shared = result
    obtain ⟨shared, left⟩ := result
    cases left <;> simp [step?, hr, Runner.step?, hstage, hend] at stuck
  | runner started turn =>
    cases hr.symm.trans started
    cases turn with
    | begins stage | declines stage | givesBack stage => cases hstage.symm.trans stage
    | works _ before | updates _ before | concludes before =>
      rw [hstage] at before
      cases before
    | finishes stage turn =>
      cases hstage.symm.trans stage
      cases turn with
      | settles moves =>
        obtain ⟨_, t, _, _, ht, hstatus, _⟩ := moves.moved
        exact ⟨t, ht, hstatus⟩
      | stays stuck =>
        have hfound := TaskRegistry.get?_of_record? ha hrunning.2
        have hcannot := stuck a.task hfound
        rw [hrunning.1] at hcannot
        cases hcannot

/-! ### Cancellation in time -/

/-- The task is cancelled, and nobody is about to complete it. -/
structure State.Withholds (s : State σ) (id : String) : Prop where
  isCancelled : s.shared.registry.isCancelled id = true
  uncompleted : ∀ t, s.shared.registry.lastSeen? id = some t → t.status ≠ .completed
  runners : ∀ r ∈ s.runners, r.job.id = id → r.isCompleting = false

theorem State.Withholds.act {s : State σ} {id : String} (h : s.Withholds id)
    (hsound : s.IsSound S) (hcustody : s.IsInCustody) (a : Act) : (s.act S a).Withholds id where
  isCancelled := (hsound.advances a).isCancelled id h.isCancelled
  uncompleted := by
    intro t ht hcompleted
    rcases State.completed_act hsound hcustody ht hcompleted with hsame | ⟨r, hr, hid, hcompleting⟩
    · exact h.uncompleted t hsame hcompleted
    · rw [h.runners r hr hid] at hcompleting
      cases hcompleting
  runners := by
    intro r' hr' hid
    have hturn := s.turn S a
    generalize s.act S a = s' at hturn hr'
    cases hturn with
    | rests | requests | letsGo | call => exact h.runners r' hr' hid
    | dispatcher turn =>
      rcases List.mem_append.mp hr' with hold | hnew
      · exact h.runners r' hold hid
      · rcases turn.started_cases with rfl | ⟨job, _, _, _, rfl⟩
        · cases hnew
        · rw [List.mem_singleton.mp hnew]
          rfl
    | runner started turn =>
      rcases List.mem_or_eq_of_mem_set hr' with hold | rfl
      · exact h.runners r' hold hid
      · rw [← Bool.not_eq_true]
        intro hcompleting
        have hnot := turn.isCompleting hcompleting
        rw [← turn.job, hid, h.isCancelled] at hnot
        cases hnot
    | worker started _ job stage =>
      rcases List.mem_or_eq_of_mem_set hr' with hold | rfl
      · exact h.runners r' hold hid
      · have hsame := h.runners _ (List.mem_of_getElem? started) (by rw [← job, hid])
        rwa [Runner.isCompleting, stage]

/-- What the acceptance of a cancellation means. -/
theorem State.accepts {s : State σ} {i : Nat} {id : String} {seen : Task}
    (hcall : s.calls[i]? = some (.requestCancel id))
    (haccepted : (s.act S (.move (.call i))).calls[i]? = some (.failPending id seen)) :
    let s' := s.act S (.move (.call i))
    s'.shared.registry.isCancelled id = true ∧ s'.runners = s.runners ∧
      ∀ t, s'.shared.registry.lastSeen? id = some t → t.status.isTerminal = false := by
  have hturn := s.turn S (.move (.call i))
  generalize s.act S (.move (.call i)) = s' at hturn haccepted ⊢
  cases hturn with
  | rests => cases hcall.symm.trans haccepted
  | call made turn =>
    cases hcall.symm.trans made
    have hi := (List.getElem?_eq_some_iff.mp hcall).1
    rw [List.getElem?_set_self hi] at haccepted
    cases haccepted
    cases turn with
    | reads _ after => cases after
    | cancels accepted =>
      obtain ⟨hfound, hrunning, hcancelled⟩ := TaskRegistry.requestCancel_eq_ok accepted
      refine ⟨hcancelled, rfl, fun t ht => ?_⟩
      have hseen := (TaskRegistry.keeps_requestCancel accepted).lastSeen? id
      cases (TaskRegistry.lastSeen?_of_get? hfound).symm.trans (hseen.symm.trans ht)
      exact hrunning

/-- A cancellation that was accepted is never lost, whatever happens later, exactly if no runner had
already found the task not cancelled when it checked for the last time. -/
theorem cancellation_kept_iff (S : Setting σ) (store : σ) (held : List String) (before : List Act)
    {i : Nat} {id : String} {seen : Task}
    (hcall : ((State.start S.limits store held).run S before).calls[i]? = some (.requestCancel id))
    (haccepted : ((State.start S.limits store held).run S (before ++ [.move (.call i)])).calls[i]?
      = some (.failPending id seen)) :
    (∀ later t, ((State.start S.limits store held).run S
        (before ++ [.move (.call i)] ++ later)).shared.registry.lastSeen? id = some t →
      t.status ≠ .completed) ↔
    ∀ r ∈ ((State.start S.limits store held).run S before).runners, r.job.id = id →
      r.isCompleting = false := by
  have haccepts := State.accepts hcall (State.run_concat _ before _ ▸ haccepted)
  rw [← State.run_concat] at haccepts
  obtain ⟨hcancelled, hrunners, hrunning⟩ := haccepts
  rw [← hrunners]
  constructor
  · intro hkept r hr hid
    rw [← Bool.not_eq_true]
    intro hcompleting
    obtain ⟨k, hk⟩ := List.mem_iff_getElem?.mp hr
    have hsound := State.isSound_run S store held (before ++ [.move (.call i)])
    obtain ⟨t, ht, hcompleted⟩ := hsound.completes hk hcompleting
    rw [hid, ← State.run_concat] at ht
    exact hkept [.move (.runner k)] t ht hcompleted
  · intro hnone later
    have hstart : ((State.start S.limits store held).run S
        (before ++ [.move (.call i)])).Withholds id := by
      refine ⟨hcancelled, fun t ht hcompleted => ?_, hnone⟩
      have hopen := hrunning t ht
      rw [hcompleted] at hopen
      cases hopen
    -- The run goes on from where the cancellation was accepted.
    rw [State.run_append]
    refine (State.run_induction (P := fun acts s => s.Withholds id) hstart
      (fun acts a h => ?_) later).uncompleted
    rw [← State.run_append] at h ⊢
    exact h.act (State.isSound_run S store held _) (State.isInCustody_run S store held _) a

/-- A task that was cancelled as soon as its runner was started never completes. -/
theorem cancellation_kept_early :
    let acts := Act.admission 0 ++ [.request (.cancel "T0")]
    let reached := (State.start {} Store.Memory.empty []).run (.withoutFiles {})
    (reached acts).calls[1]? = some (.requestCancel "T0") ∧
      (reached (acts ++ [.move (.call 1)])).calls[1]?
        = some (.failPending "T0" (.submitted "T0" "s" none none .epoch)) ∧
      ∀ later t, (reached (acts ++ [.move (.call 1)] ++ later)).shared.registry.lastSeen? "T0"
        = some t → t.status ≠ .completed := by
  have hcall : ((State.start {} Store.Memory.empty []).run (.withoutFiles {})
      (Act.admission 0 ++ [.request (.cancel "T0")])).calls[1]? = some (.requestCancel "T0") := by
    decide +kernel
  have haccepted : ((State.start {} Store.Memory.empty []).run (.withoutFiles {})
      (Act.admission 0 ++ [.request (.cancel "T0")] ++ [.move (.call 1)])).calls[1]?
        = some (.failPending "T0" (.submitted "T0" "s" none none .epoch)) := by
    decide +kernel
  refine ⟨hcall, haccepted, ?_⟩
  exact (cancellation_kept_iff (.withoutFiles {}) Store.Memory.empty [] _ hcall haccepted).mpr
    (by decide +kernel)

/-- A task completes although its cancellation was accepted, between the last check of its runner
and the turn in which it completes. -/
theorem cancellation_lost :
    let S := Setting.withoutFiles { fileWorkers := 1 }
    let acts := Act.admission 0 ++ Act.work 0 ++ Move.turns (.runner 0) 1
      ++ [.request (.cancel "T0")]
    let seen : Task :=
      { Task.submitted "T0" "s" none none .epoch with
        status := .processing, startedAt := some .epoch }
    let s := (State.start S.limits Store.Memory.empty []).run S acts
    s.calls[1]? = some (.requestCancel "T0") ∧
      (s.run S [.move (.call 1)]).calls[1]? = some (.failPending "T0" seen) ∧
      ((s.run S [.move (.call 1), .move (.runner 0)]).shared.registry.lastSeen? "T0").map (·.status)
        = some .completed := by
  decide +kernel

end CodeIndex.Scheduler
