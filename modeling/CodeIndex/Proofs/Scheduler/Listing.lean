import CodeIndex.Proofs.Scheduler.Cancellation
/-!
# Listing before completing

A task completes only after its runner has listed the files of the source, and from then on the
ledger, the context of its files and its workers are those of what was listed (`Log.Lists`).

An act concerns one runner at most; `Log.Turn` says which and how. What other acts do touches
neither a runner nor the store.
-/

namespace CodeIndex.Scheduler

variable {σ : Type} {S : Setting σ} {s s' : Shared σ}

/-! ### Acts -/

/-- The end of a task leaves the store alone. -/
theorem Ending.Turn.store {ending : Ending} {left : Option Ending}
    (h : Ending.Turn S s ending s' left) : s'.desk.store = s.desk.store := by
  cases h <;> rfl

theorem Call.Turn.store {call call' : Call} (h : Call.Turn S s call s' call') :
    s'.desk.store = s.desk.store := by
  cases h with
  | refuses turn | announces turn => exact turn.store
  | reads | counts | inserts | sends | returns | cancels | fails | leaves | forgets
  | refusesFurther | signals | takes => rfl

theorem Dispatcher.Turn.store {dispatcher dispatcher' : Dispatcher}
    {runners started : List Runner}
    (turn : Dispatcher.Turn S runners s dispatcher s' dispatcher' started) :
    s'.desk.store = s.desk.store := by
  rcases turn.ending_cases with ⟨_, _, turn⟩ | ⟨_, hdesk, _⟩
  · exact turn.store
  · rw [hdesk]

/-- Only workers write to the store. -/
theorem Runner.Turn.store {r r' : Runner} (h : Runner.Turn S s r s' r') :
    s'.desk.store = s.desk.store := by
  cases h with
  | finishes _ turn => exact turn.store
  | begins | declines | works | updates | concludes | givesBack => rfl

/-- What an act can do to the runners, and the log it leads to. -/
inductive Log.Turn (S : Setting σ) (g : Log σ) : Log σ → Prop
  /-- Nothing happens to a runner or to the store. -/
  | aside {t : State σ} (runners : t.runners = g.state.runners)
      (store : t.shared.desk.store = g.state.shared.desk.store) : Turn S g ⟨t, g.ledger⟩
  | starts {job : Job} (spawning : g.state.dispatcher = .spawn job) :
      Turn S g
        ⟨{ g.state with
          dispatcher := .select, runners := g.state.runners ++ [.ofJob job S.now] }, g.ledger⟩
  | runner {i : Nat} {r r' : Runner} {shared : Shared σ} (started : g.state.runners[i]? = some r)
      (moved : r.step? S g.state.shared = some (shared, r')) :
      Turn S g
        ⟨{ g.state with shared := shared, runners := g.state.runners.set i r' },
          enterNote g.ledger (r.note?.map (r.job.id, ·))⟩
  | worker {i k : Nat} {r r' : Runner} {w w' : Worker} {shared : Shared σ}
      (started : g.state.runners[i]? = some r) (working : r.workers[k]? = some w)
      (moved : w.step? S g.state.shared r = some (shared, r', w')) :
      Turn S g
        ⟨{ g.state with
          shared := shared
          runners := g.state.runners.set i { r' with workers := r'.workers.set k w' } },
          enterNote g.ledger ((w.note? r).map (r.job.id, ·))⟩

/-- There is nothing else that can happen to the runners. -/
theorem Log.turn (S : Setting σ) (g : Log σ) (a : Act) : g.Turn S (g.act S a) := by
  cases a with
  | request r | letGo source => exact .aside rfl rfl
  | move m =>
    rw [act]
    cases hstep : g.state.step? S m with
    | none => exact .aside rfl rfl
    | some t =>
      cases m with
      | call i =>
        obtain ⟨call, call', shared, _, hmove, rfl⟩ := State.step?_call hstep
        exact .aside rfl (Call.turn hmove).store
      | dispatcher =>
        obtain ⟨dispatcher, shared, started, turn, rfl⟩ := State.step?_dispatcher hstep
        rcases turn.started_cases with rfl | ⟨job, hjob, rfl, rfl, rfl⟩
        · exact .aside (List.append_nil _) turn.store
        · exact .starts hjob
      | runner i =>
        obtain ⟨r, r', shared, hr, hmove, rfl⟩ := State.step?_runner hstep
        have hnote : g.state.note? (.runner i) = r.note?.map (r.job.id, ·) := by
          rw [State.note?, hr, Option.bind_some]
        rw [hnote]
        exact .runner hr hmove
      | worker i k =>
        obtain ⟨r, r', w, w', shared, hr, hw, hmove, rfl⟩ := State.step?_worker hstep
        have hnote : g.state.note? (.worker i k) = (w.note? r).map (r.job.id, ·) := by
          rw [State.note?, hr, Option.bind_some, hw, Option.bind_some]
        rw [hnote]
        exact .worker hr hw hmove

/-! ### Runners that have listed their files -/

/-- What the files of a task have in common once they are listed. -/
def Setting.contextOf (S : Setting σ) (id : String) (snapshot : Source.Snapshot) :
    Ingest.Context :=
  ⟨id, snapshot.repositoryRoot, snapshot.commitHash, snapshot.branch, S.now⟩

/-- The runner is to list the files of its task. -/
def Runner.Stage.isListing : Runner.Stage → Bool
  | start | enumerate | expect _ => true
  | _ => false

/-- The runner has not listed the files of its task, and it is not going to complete it without. -/
structure Runner.IsUnlisted (S : Setting σ) (l : Ledger) (r : Runner) : Prop where
  ledger : l = .empty
  workers : r.workers = []
  found : ∀ snapshot, r.stage = .expect snapshot →
    S.enumerate r.job.source r.job.branch = .ok snapshot
  listing : r.stage.isWorking = true → r.stage.isListing = true
  uncompleting : r.isCompleting = false

/-- The runner has listed the files of its task. -/
structure Runner.HasListed (S : Setting σ) (snapshot : Source.Snapshot) (l : Ledger) (r : Runner) :
    Prop where
  found : S.enumerate r.job.source r.job.branch = .ok snapshot
  files : l.files = snapshot.files
  context : r.context = S.contextOf r.job.id snapshot
  listed : r.stage.isListing = false

/-- The runner after it has listed the files. -/
def Runner.list (S : Setting σ) (snapshot : Source.Snapshot) (r : Runner) : Runner :=
  { r with
    stage := .nextBatch (groups S.batchSize snapshot.files)
    context := S.contextOf r.job.id snapshot
    workers := List.replicate S.fileWorkers .fresh }

/-- But for the turn in which it lists the files, a runner leaves its context and its workers
alone. -/
theorem Runner.step?_context {r r' : Runner} (h : r.step? S s = some (s', r')) :
    (∃ snapshot, r.stage = .expect snapshot ∧ r' = r.list S snapshot) ∨
      r'.context = r.context ∧ r'.workers = r.workers ∧
        (r.stage.isListing = false → r'.stage.isListing = false) := by
  cases hstage : r.stage with
  | expect snapshot =>
    simp only [step?, hstage] at h
    cases h
    exact Or.inl ⟨snapshot, rfl, rfl⟩
  | start | enumerate | noteFile path remaining later | record outcome remaining later
  | closeFiles | awaitWorkers | check | finish ending | giveBack | ended =>
    simp only [step?, hstage] at h
    repeat' split at h
    all_goals
      cases h
      try exact Or.inr ⟨rfl, rfl, fun h => by first | rfl | cases h⟩
  | nextBatch later =>
    cases later
    all_goals
      simp only [step?, hstage] at h
      repeat' split at h
    all_goals
      cases h
      try exact Or.inr ⟨rfl, rfl, fun _ => rfl⟩
  | feed files sent later =>
    cases files
    all_goals
      simp only [step?, hstage] at h
      repeat' split at h
    all_goals
      cases h
      try exact Or.inr ⟨rfl, rfl, fun _ => rfl⟩
  | await remaining later =>
    cases remaining
    all_goals
      simp only [step?, hstage] at h
      repeat' split at h
    all_goals
      cases h
      try exact Or.inr ⟨rfl, rfl, fun _ => rfl⟩

/-- A runner neither processes nor finishes a file, and it lists them only once. -/
theorem Runner.enter?_note (l : Ledger) (r : Runner) :
    (l.enter? r.note?).processed = l.processed ∧ (l.enter? r.note?).finished = l.finished ∧
      (r.stage.isListing = false → (l.enter? r.note?).files = l.files) := by
  rw [note?]
  cases r.stage with
  | expect snapshot => exact ⟨rfl, rfl, by rintro ⟨⟩⟩
  | start | enumerate | nextBatch later | feed files sent later | await remaining later
  | noteFile path remaining later | record outcome remaining later | closeFiles | awaitWorkers
  | check | finish ending | giveBack | ended => exact ⟨rfl, rfl, fun _ => rfl⟩

/-- A worker leaves the context of its runner alone. -/
theorem Worker.context_of_step {r r' : Runner} {w w' : Worker}
    (h : w.step? S s r = some (s', r', w')) : r'.context = r.context := by
  obtain ⟨stage, parsers⟩ := w
  cases stage with
  | idle =>
    simp only [step?] at h
    split at h
    · cases h
      rfl
    · split at h <;> cases h
      rfl
  | check file | begin file | process file | report outcome =>
    cases h
    rfl
  | ended => cases h

/-- What a worker notes is entered in the ledger of the task that its runner still has. -/
theorem Worker.enterNote_own (ledgers : String → Ledger) {r r' : Runner} {w w' : Worker}
    (h : w.step? S s r = some (s', r', w')) :
    enterNote ledgers ((w.note? r).map (r.job.id, ·)) r'.job.id
      = (ledgers r.job.id).enter? (w.note? r) := by
  rw [(Worker.step?_shared h).2.1]
  exact enterNote_self ..

namespace Runner.HasListed

variable {snapshot : Source.Snapshot} {l : Ledger} {r r' : Runner}

theorem step (h : r.HasListed S snapshot l) (hstep : r.step? S s = some (s', r')) :
    r'.HasListed S snapshot (l.enter? r.note?) := by
  have hjob := (Runner.turn hstep).job
  rcases Runner.step?_context hstep with ⟨_, hstage, _⟩ | ⟨hcontext, _, hlisted⟩
  · have hlisting := h.listed
    rw [hstage] at hlisting
    cases hlisting
  · refine ⟨?_, ?_, ?_, hlisted h.listed⟩
    · rw [hjob]
      exact h.found
    · rw [(Runner.enter?_note l r).2.2 h.listed]
      exact h.files
    · rw [hcontext, hjob]
      exact h.context

theorem worker {w w' : Worker} {k : Nat} (h : r.HasListed S snapshot l)
    (hstep : w.step? S s r = some (s', r', w')) :
    HasListed S snapshot (l.enter? (w.note? r)) { r' with workers := r'.workers.set k w' } := by
  obtain ⟨_, hjob, hstage⟩ := Worker.step?_shared hstep
  refine ⟨?_, ?_, ?_, ?_⟩
  · show S.enumerate r'.job.source r'.job.branch = _
    rw [hjob]
    exact h.found
  · rw [(Worker.enter?_note l w r).1]
    exact h.files
  · show r'.context = S.contextOf r'.job.id snapshot
    rw [Worker.context_of_step hstep, hjob]
    exact h.context
  · show r'.stage.isListing = false
    rw [hstage]
    exact h.listed

end Runner.HasListed

namespace Runner.IsUnlisted

variable {l : Ledger} {r r' : Runner}

theorem ofJob (S : Setting σ) (job : Job) (now : Time.Timestamp) :
    IsUnlisted S .empty (.ofJob job now) where
  ledger := rfl
  workers := rfl
  found := nofun
  listing := nofun
  uncompleting := rfl

/-- A runner that has not listed its files does so now, or it still has not. -/
theorem step (h : r.IsUnlisted S l) (hstep : r.step? S s = some (s', r')) :
    r'.IsUnlisted S (l.enter? r.note?) ∨
      ∃ snapshot, r'.HasListed S snapshot (l.enter? r.note?) := by
  obtain ⟨rfl, hworkers, hfound, hlisting, huncompleting⟩ := h
  -- A runner that goes on without listing notes nothing.
  have hmoved : ∀ stage, r' = { r with stage := stage } → r.note? = none →
      (∀ snapshot, stage = .expect snapshot →
        S.enumerate r.job.source r.job.branch = .ok snapshot) →
      (stage.isWorking = true → stage.isListing = true) → r'.isCompleting = false →
      r'.IsUnlisted S (Ledger.empty.enter? r.note?) := by
    rintro stage rfl hnote hfound hlisting huncompleting
    rw [hnote]
    exact ⟨rfl, hworkers, hfound, hlisting, huncompleting⟩
  cases hstage : r.stage with
  | start =>
    have hnote : r.note? = none := by rw [note?, hstage]
    cases Runner.turn hstep with
    | begins => exact Or.inl (hmoved _ rfl hnote (by rintro _ ⟨⟩) (fun _ => rfl) rfl)
    | declines => exact Or.inl (hmoved _ rfl hnote (by rintro _ ⟨⟩) (by rintro ⟨⟩) rfl)
    | works _ before | updates _ before | concludes before =>
      rw [hstage] at before
      cases before
    | finishes stage | givesBack stage => cases hstage.symm.trans stage
  | enumerate =>
    have hnote : r.note? = none := by rw [note?, hstage]
    simp only [step?, hstage] at hstep
    split at hstep
    · cases hstep
    · split at hstep
      · rename_i snapshot hsnapshot
        cases hstep
        refine Or.inl (hmoved _ rfl hnote (fun other heq => ?_) (fun _ => rfl) rfl)
        rw [hsnapshot, Runner.Stage.expect.inj heq]
      · cases hstep
        exact Or.inl (hmoved _ rfl hnote (by rintro _ ⟨⟩) (by rintro ⟨⟩) rfl)
  | expect snapshot =>
    have hnote : r.note? = some (.listed snapshot.files) := by rw [note?, hstage]
    simp only [step?, hstage] at hstep
    cases hstep
    rw [hnote]
    exact Or.inr ⟨snapshot, hfound snapshot hstage, rfl, rfl, rfl⟩
  | finish ending =>
    have hnote : r.note? = none := by rw [note?, hstage]
    cases Runner.turn hstep with
    | begins stage | declines stage | givesBack stage => cases hstage.symm.trans stage
    | works _ before | updates _ before | concludes before =>
      rw [hstage] at before
      cases before
    | finishes _ turn next =>
      subst next
      -- What is left to do at an end is not to settle it.
      cases turn <;> exact Or.inl (hmoved _ rfl hnote (by rintro _ ⟨⟩) (by rintro ⟨⟩) rfl)
  | giveBack =>
    have hnote : r.note? = none := by rw [note?, hstage]
    simp only [step?, hstage] at hstep
    cases hstep
    exact Or.inl (hmoved _ rfl hnote (by rintro _ ⟨⟩) (by rintro ⟨⟩) rfl)
  | ended =>
    simp only [step?, hstage] at hstep
    cases hstep
  | nextBatch later | feed files sent later | await remaining later
  | noteFile path remaining later | record outcome remaining later
  | closeFiles | awaitWorkers | check =>
    rw [hstage] at hlisting
    cases hlisting rfl

end Runner.IsUnlisted

/-! ### All logs -/

namespace Log.IsSound

variable {g : Log σ} (h : g.IsSound S)
include h

/-- A task does not complete while its runner is not about to complete it. -/
theorem uncompleted_act (hcustody : g.state.IsInCustody) (a : Act) {r : Runner}
    (hr : r ∈ g.state.runners) (huncompleting : r.isCompleting = false)
    (hnot : ∀ t, g.state.shared.registry.lastSeen? r.job.id = some t → t.status ≠ .completed) :
    ∀ t, (g.act S a).state.shared.registry.lastSeen? r.job.id = some t →
      t.status ≠ .completed := by
  intro t ht hcompleted
  have hstate : (g.act S a).state = g.state.act S a := Log.state_run g [a]
  rw [hstate] at ht
  rcases State.completed_act ⟨g.ledger, h⟩ hcustody ht hcompleted with
    hsame | ⟨q, hq, hid, hcompleting⟩
  · exact hnot t hsame hcompleted
  · rw [h.runner_eq hq hr hid, huncompleting] at hcompleting
    cases hcompleting

end Log.IsSound

/-- The runner has listed the files of its task, or the task has not completed. -/
def Runner.Lists (S : Setting σ) (l : Ledger) (s : Shared σ) (r : Runner) : Prop :=
  (r.IsUnlisted S l ∧ ∀ t, s.registry.lastSeen? r.job.id = some t → t.status ≠ .completed) ∨
    ∃ snapshot, r.HasListed S snapshot l

/-- Every runner has listed the files of its task before it completes it. -/
def Log.Lists (S : Setting σ) (g : Log σ) : Prop :=
  ∀ r ∈ g.state.runners, r.Lists S (g.ledger r.job.id) g.state.shared

theorem Log.Lists.act {g : Log σ} (h : g.Lists S) (hsound : g.IsSound S)
    (hcustody : g.state.IsInCustody) (a : Act) : (g.act S a).Lists S := by
  have hturn := g.turn S a
  have hsound' := hsound.act a
  have huncompleted := fun r => hsound.uncompleted_act hcustody a (r := r)
  generalize g.act S a = g' at hturn hsound' huncompleted ⊢
  -- A runner that took no turn is as it was, and so is its ledger.
  have hothers : ∀ r ∈ g.state.runners, g'.ledger r.job.id = g.ledger r.job.id →
      r.Lists S (g'.ledger r.job.id) g'.state.shared := by
    intro r hr hledger
    rw [hledger]
    refine (h r hr).imp_left fun ⟨hunlisted, hnot⟩ => ⟨hunlisted, ?_⟩
    exact huncompleted r hr hunlisted.uncompleting hnot
  cases hturn with
  | aside runners store =>
    intro r hr
    rw [runners] at hr
    exact hothers r hr rfl
  | @starts job spawning =>
    intro r hr
    rcases List.mem_append.mp hr with hold | hnew
    · exact hothers r hold rfl
    · obtain ⟨a, ha, horder⟩ := hsound'.running r hr
      have hplace := horder.place
      rw [List.mem_singleton.mp hnew] at ha hplace ⊢
      obtain ⟨hunstarted, hempty, -⟩ := hplace
      refine Or.inl ⟨?_, fun t ht hcompleted => ?_⟩
      · rw [hempty]
        exact .ofJob S job S.now
      · obtain rfl : a.task = t :=
          Option.some.inj ((TaskRegistry.lastSeen?_of_record? ha).symm.trans ht)
        rcases hunstarted with ⟨hpending, _⟩ | hfailed
        · cases hpending.symm.trans hcompleted
        · cases hfailed.symm.trans hcompleted
  | @runner i r r' shared started moved =>
    intro q hq
    have hmem := List.mem_of_getElem? started
    rcases hsound.mem_set_cases started hq with rfl | ⟨hold, hne⟩
    · show Runner.Lists S (enterNote _ _ q.job.id) shared q
      have hjob := (Runner.turn moved).job
      rw [hjob, enterNote_self]
      rcases h r hmem with ⟨hunlisted, hnot⟩ | ⟨snapshot, hlisted⟩
      · refine (hunlisted.step moved).imp_left fun hstill => ⟨hstill, ?_⟩
        rw [hjob]
        exact huncompleted r hmem hunlisted.uncompleting hnot
      · exact Or.inr ⟨snapshot, hlisted.step moved⟩
    · exact hothers q hold (enterNote_of_ne _ _ hne)
  | @worker i k r r' w w' shared started working moved =>
    intro q hq
    have hmem := List.mem_of_getElem? started
    rcases hsound.mem_set_cases started hq with rfl | ⟨hold, hne⟩
    · show Runner.Lists S (enterNote _ _ r'.job.id) shared _
      rw [Worker.enterNote_own _ moved]
      rcases h r hmem with ⟨hunlisted, -⟩ | ⟨snapshot, hlisted⟩
      · -- Before it lists the files, a runner has no workers.
        rw [hunlisted.workers] at working
        cases working
      · exact Or.inr ⟨snapshot, hlisted.worker moved⟩
    · exact hothers q hold (enterNote_of_ne _ _ hne)

/-- Whatever happens, a task completes only after its runner has listed the files. -/
theorem Log.lists_run (S : Setting σ) (store : σ) (held : List String) (acts : List Act) :
    ((Log.start S store held).run S acts).Lists S := by
  have hstart : (Log.start S store held).Lists S := fun r hr => absurd hr List.not_mem_nil
  have hall := Log.run_induction (S := S) (l := Log.start S store held)
    (P := fun g => g.IsSound S ∧ g.state.IsInCustody ∧ g.Lists S) ?_
    ⟨Log.isSound_start store held, State.isInCustody_start S.limits store held, hstart⟩ acts
  · exact hall.2.2
  · rintro g a ⟨hsound, hcustody, h⟩
    have hstate : (g.act S a).state = g.state.act S a := Log.state_run g [a]
    refine ⟨hsound.act a, ?_, h.act hsound hcustody a⟩
    rw [hstate]
    exact hcustody.act ⟨g.ledger, hsound⟩ a

end CodeIndex.Scheduler
