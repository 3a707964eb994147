import CodeIndex.Proofs.Scheduler.Accounts
/-!
# The turns of a runner

A runner goes from listing the files through feeding them batch by batch to ending its task. Each of
its turns changes no record but its own, and afterwards its places, its ledger and its record agree
again (`Runner.IsInOrder.runner`). A batch begins only when everything before it is recorded, and
the runner comes to a task without an error only if every file was recorded and none was skipped.
-/

namespace CodeIndex.Scheduler

open CodeIndex.Ingest (Outcome)

variable {batchSize : Nat} {l : Ledger} {a b : TaskRecord} {cancelled : Bool} {r r' : Runner}
  {σ : Type} {S : Setting σ} {s s' : Shared σ}

/-! ### Accounts -/

namespace Runner.Balances

variable (h : r.Balances batchSize l cancelled)
include h

/-- Where the runner stands matters only for what it has in its hands. -/
theorem move (hfiles : r'.files = r.files) (hworkers : r'.workers = r.workers)
    (hout : r'.stage.outstanding = r.stage.outstanding)
    (hreported : r'.stage.unrecorded ++ outcomesOf r'.reports
      = r.stage.unrecorded ++ outcomesOf r.reports) : r'.Balances batchSize l cancelled where
  fed := by
    rw [hfiles]
    exact h.fed
  held := by
    rw [hworkers]
    exact h.held
  processed := by
    rw [hworkers]
    exact h.processed
  reported := by
    rw [hreported]
    exact h.reported
  outstanding := by
    rw [hout, hfiles]
    exact h.outstanding
  barrier := h.barrier
  skipped := h.skipped
  skipping := by
    rw [hworkers]
    exact h.skipping

/-- The runner comes to another stage with the same in its hands. -/
theorem moveTo {old new : Stage} (hstage : r.stage = old) (hout : new.outstanding = old.outstanding)
    (hunrecorded : new.unrecorded = old.unrecorded) :
    Balances batchSize l cancelled { r with stage := new } := by
  refine h.move rfl rfl ?_ ?_
  · rw [hstage]
    exact hout
  · show new.unrecorded ++ _ = _
    rw [hstage, hunrecorded]

/-- The next file of the batch goes into the channel. -/
theorem feed {file : Source.File} {files : List Source.File} {sent : Nat}
    {later : List (List Source.File)} (hstage : r.stage = .feed (file :: files) sent later)
    (hfed : l.received ++ (r.files ++ [file]) <+: l.files) :
    Balances batchSize l cancelled
      { r with stage := .feed files (sent + 1) later, files := r.files ++ [file] } :=
  { h with
    fed := hfed
    reported := by
      have hreported := h.reported
      rwa [hstage] at hreported
    outstanding := by
      have hout := h.outstanding
      rw [hstage] at hout
      simp only [Stage.outstanding, List.length_append, List.length_singleton] at hout ⊢
      omega }

/-- The outcome in the hands of the runner is recorded. -/
theorem record {outcome : Outcome} {remaining : Nat} {later : List (List Source.File)}
    (hstage : r.stage = .record outcome remaining later) :
    Balances batchSize (l.enter (.recorded outcome)) cancelled
      { r with stage := .await remaining later } :=
  { h with
    reported := by
      have hreported := h.reported
      rw [hstage] at hreported
      show l.finished = (l.recorded ++ [outcome]) ++ ([] ++ outcomesOf r.reports)
      rw [hreported, List.append_assoc]
      rfl
    outstanding := by
      have hout := h.outstanding
      rw [hstage] at hout
      show (l.recorded ++ [outcome]).length + remaining = _
      rw [List.length_append, List.length_singleton, Nat.add_assoc, Nat.add_comm 1]
      exact hout
    barrier := by
      intro b hb
      exact (h.barrier b hb).trans (outcomePaths_le_append _ _) }

end Runner.Balances

/-- Workers that have done nothing yet count for nothing. -/
theorem sum_map_fresh {M : Type} [AddCommMonoid M] {f : Worker → M} (hf : f .fresh = 0) {n : Nat} :
    ((List.replicate n Worker.fresh).map f).sum = 0 := by
  rw [List.map_replicate, hf, List.sum_replicate, nsmul_zero]

/-- When the files are listed and the workers start, nothing has been fed yet. -/
theorem Runner.Balances.list (h : r.Balances batchSize .empty cancelled)
    (hunrecorded : r.stage.unrecorded = []) (files : List Source.File)
    (later : List (List Source.File)) (context : Ingest.Context) (n : Nat) :
    Balances batchSize (Ledger.empty.enter (.listed files)) cancelled
      { r with
        stage := .nextBatch later, context := context, workers := List.replicate n .fresh } := by
  have hfiles : r.files = [] := List.prefix_nil.mp h.fed
  have hreports : outcomesOf r.reports = [] := by
    have hreported := h.reported
    rw [hunrecorded] at hreported
    exact hreported.symm
  exact {
    fed := by
      rw [hfiles]
      exact List.nil_prefix
    held := by
      show 0 = ((List.replicate n Worker.fresh).map Worker.paths).sum + 0
      rw [sum_map_fresh rfl, add_zero]
    processed := by
      show 0 + ((List.replicate n Worker.fresh).map Worker.unprocessed).sum ≤ 0
      rw [sum_map_fresh rfl, add_zero]
    reported := by
      show [] = [] ++ ([] ++ outcomesOf r.reports)
      rw [hreports]
      rfl
    outstanding := by
      rw [hfiles]
      rfl
    barrier := nofun
    skipped := nofun
    skipping := by
      intro w hw o ho
      rw [List.eq_of_mem_replicate hw] at ho
      cases ho }

/-! ### What the record tells -/

namespace Ledger.Tells

variable {t : Task}

/-- Whoever handles a record that is not his own neither counts in it nor completes its task. -/
theorem handled (h : l.Tells a.task) (hab : a.IsHandled b) : l.Tells b.task where
  totalFiles := hab.totalFiles.trans h.totalFiles
  tally := hab.tally.trans h.tally
  completed := by
    intro hcompleted
    rcases hab.status with hstatus | ⟨_, hfailed⟩
    · exact h.completed (hstatus.symm.trans hcompleted)
    · rw [hfailed] at hcompleted
      cases hcompleted

/-- A task that is moved to another status. -/
theorem moved {t u : Task} {next : TaskStatus} {error : Option String} {now : Time.Timestamp}
    (h : l.Tells t) (hu : t.moveTo? next error now = some u)
    (hdone : next = .completed → l.IsDone) : l.Tells u := by
  obtain ⟨_, _, hstatus, htally, htotal⟩ := Task.moveTo?_eq_some hu
  exact ⟨htotal.trans h.totalFiles, htally.trans h.tally, fun hc => hdone (hstatus.symm.trans hc)⟩

end Ledger.Tells

/-! ### Turns -/

/-- What a turn of a runner does: it changes its own record and itself, and both agree with the
ledger afterwards. -/
structure Runner.IsTurn (batchSize : Nat) (l : Ledger) (s s' : Shared σ) (r r' : Runner) :
    Prop where
  job : r'.job = r.job
  queue : s'.queue = s.queue
  issued : s'.issued = s.issued
  records : s.registry.IsHandled (some r.job.id) s'.registry
  own : ∃ b, s'.registry.record? r.job.id = some b ∧ l.Tells b.task ∧ r'.IsInOrder batchSize l b

namespace Runner.IsTurn

variable (hrecord : s.registry.record? r.job.id = some a)
include hrecord

/-- The runner leaves the registry alone. -/
theorem of_same (htells : l.Tells a.task) (hjob : r'.job = r.job)
    (horder : r'.IsInOrder batchSize l a) : IsTurn batchSize l s s r r' :=
  ⟨hjob, rfl, rfl, .refl _, a, hrecord, htells, horder⟩

/-- The runner updates its own record. -/
theorem of_update {f : Task → Task} (hf : ∀ t, t.id = r.job.id → (f t).id = r.job.id)
    (hretained : a.retained = true) (htells : l.Tells (f a.task)) (hjob : r'.job = r.job)
    (horder : r'.IsInOrder batchSize l { a with task := f a.task }) :
    IsTurn batchSize l s (s.updateTask r.job.id f) r r' where
  job := hjob
  queue := rfl
  issued := rfl
  records := TaskRegistry.isHandled_update hf
  own := ⟨_, TaskRegistry.record?_update_self hf hrecord hretained, htells, horder⟩

/-- The runner handles records as anybody may. -/
theorem of_handled {registry : TaskRegistry} (hregistry : s.registry.IsHandled none registry)
    (htells : l.Tells a.task) (hjob : r'.job = r.job)
    (horder : r'.IsInOrder batchSize l a) : IsTurn batchSize l s (s.withRegistry registry) r r' where
  job := hjob
  queue := rfl
  issued := rfl
  records := hregistry.but
  own := by
    obtain ⟨b, hb, hab⟩ := hregistry.record _ _ nofun hrecord
    exact ⟨b, hb, htells.handled hab, horder.handled hab⟩

end Runner.IsTurn

/-! ### Batches -/

/-- A batch has room for a file. -/
theorem Setting.batchSize_pos (S : Setting σ) : 0 < S.batchSize :=
  Nat.lt_of_lt_of_le Nat.zero_lt_one (Nat.le_max_right _ _)

/-- With the first batch, nothing has been fed. -/
theorem Runner.isInBatch_list (files : List Source.File) (hfiles : r'.files = [])
    (hstage : r'.stage.unfed = []) :
    r'.IsInBatch batchSize (Ledger.empty.enter (.listed files)) (groups batchSize files) :=
  ⟨0, by simp [Ledger.enter, Ledger.empty, hfiles, hstage], by simp [Ledger.enter, Ledger.empty],
    by
      rw [Nat.zero_sub, Nat.zero_mul, List.take_zero]
      exact Multiset.zero_le _⟩

/-- When the runner begins the next batch, everything before it is recorded. -/
theorem Runner.IsInBatch.begin {files : List Source.File} {later : List (List Source.File)}
    (h : r.IsInBatch batchSize l (files :: later)) (hpos : 0 < batchSize)
    (hbalance : r.Balances batchSize l cancelled) (hout : r.stage.outstanding = 0)
    (hunfed : r.stage.unfed = []) :
    IsInBatch batchSize l { r with stage := .feed files 0 later } later := by
  obtain ⟨begun, hfed, hlater, _⟩ := h
  -- With nothing outstanding, what was received is recorded and the channel is empty.
  obtain ⟨hnothing, hall⟩ := hbalance.of_outstanding_eq_zero hout
  obtain ⟨hbatch, hrest⟩ := groups_eq_cons hpos hlater.symm
  rw [hunfed, List.append_nil, hnothing, List.append_nil] at hfed
  refine ⟨begun + 1, ?_, ?_, ?_⟩
  · show l.received ++ r.files ++ files = _
    rw [hnothing, List.append_nil, hfed, hbatch, Nat.succ_mul, List.take_add]
  · rw [hrest, List.drop_drop, Nat.succ_mul]
  · rw [Nat.add_sub_cancel, ← hfed]
    exact hbalance.outcomePaths_recorded hall

/-- After the last batch, every file was fed. -/
theorem Runner.IsInBatch.isFed (h : r.IsInBatch batchSize l []) (hunfed : r.stage.unfed = []) :
    l.received ++ r.files = l.files := by
  obtain ⟨begun, hfed, hlater, _⟩ := h
  have hrest := eq_nil_of_groups_eq_nil hlater.symm
  rw [hunfed, List.append_nil] at hfed
  rw [hfed, List.take_of_length_le (List.drop_eq_nil_iff.mp hrest)]

/-- The runner stays within its batch. -/
theorem Runner.IsInBatch.move {later : List (List Source.File)} (h : r.IsInBatch batchSize l later)
    (hfiles : r'.files ++ r'.stage.unfed = r.files ++ r.stage.unfed) :
    r'.IsInBatch batchSize l later := by
  obtain ⟨begun, hfed, hrest⟩ := h
  rw [List.append_assoc, ← hfiles, ← List.append_assoc] at hfed
  exact ⟨begun, hfed, hrest⟩

/-- A runner that records an outcome stays within its batch. -/
theorem Runner.IsInBatch.record {later : List (List Source.File)} {outcome : Outcome}
    (h : r.IsInBatch batchSize l later) :
    r.IsInBatch batchSize (l.enter (.recorded outcome)) later := by
  obtain ⟨begun, hfed, hlater, hdone⟩ := h
  exact ⟨begun, hfed, hlater, hdone.trans (outcomePaths_le_append _ _)⟩

/-! ### One stage after the other -/

namespace Runner.IsInOrder

section

variable (h : r.IsInOrder S.batchSize l a) (hrecord : s.registry.record? r.job.id = some a)
  (htells : l.Tells a.task) (hstep : r.step? S s = some (s', r'))
include h hrecord htells hstep

/-- A pending task begins. If the task was failed before, the runner leaves it so and gives its
permit back. -/
theorem turn_start (hstage : r.stage = .start) :
    IsTurn S.batchSize (l.enter? r.note?) s s' r r' := by
  have hplace := h.place
  simp only [IsPlaced, hstage] at hplace
  simp only [step?, hstage, Option.some.injEq, Prod.mk.injEq] at hstep
  simp only [note?, hstage]
  obtain ⟨rfl, rfl⟩ := hstep
  obtain ⟨hunstarted, rfl, hworkers⟩ := hplace
  have hnobody := hasNoWorker_of_nil hworkers
  rcases TaskRegistry.transition_of_record? hrecord .processing none S.now with
    ⟨t, hretained, ht, heq⟩ | ⟨hno, heq⟩
  · obtain ⟨_, hid, hstatus, _⟩ := Task.moveTo?_eq_some ht
    have hstarted : Ledger.empty.Tells t := htells.moved ht TaskStatus.noConfusion
    rw [heq]
    show IsTurn S.batchSize .empty s (s.updateTask r.job.id fun _ => t) r
      { r with stage := .enumerate }
    refine .of_update hrecord ?_ hretained hstarted rfl
      ⟨h.balance.moveTo hstage rfl rfl, ⟨hstatus, hretained⟩, rfl, hworkers⟩
    exact fun _ _ => hid.trans (TaskRegistry.id_of_record? hrecord)
  · rw [heq]
    show IsTurn S.batchSize .empty s s r { r with stage := .giveBack }
    refine .of_same hrecord htells rfl ⟨h.balance.moveTo hstage rfl rfl, ?_, hnobody⟩
    -- A pending task is found, so it was moved.
    rcases hunstarted with ⟨hpending, hretained⟩ | hfailed
    · have hcan := hno hretained
      rw [hpending] at hcan
      cases hcan
    · rw [hfailed]
      rfl

/-- Either the files are listed, or the task is to end with what went wrong. The record does not
change yet. -/
theorem turn_enumerate (hstage : r.stage = .enumerate) :
    IsTurn S.batchSize (l.enter? r.note?) s s' r r' := by
  have hplace := h.place
  simp only [IsPlaced, hstage] at hplace
  simp only [step?, hstage] at hstep
  simp only [note?, hstage]
  split at hstep
  · cases hstep
  · split at hstep
    · cases hstep
      exact .of_same hrecord htells rfl ⟨h.balance.moveTo hstage rfl rfl, hplace⟩
    · cases hstep
      refine .of_same hrecord htells rfl ⟨h.balance.moveTo hstage rfl rfl, ?_⟩
      obtain ⟨hrunning, _, hworkers⟩ := hplace
      exact ⟨hrunning, rfl, hasNoWorker_of_nil hworkers,
        fun herror => absurd herror (Option.some_ne_none _)⟩

/-- The record is told how many files there are. From here on there are batches, of which none has
begun. -/
theorem turn_expect {snapshot : Source.Snapshot} (hstage : r.stage = .expect snapshot) :
    IsTurn S.batchSize (l.enter? r.note?) s s' r r' := by
  have hplace := h.place
  simp only [IsPlaced, hstage] at hplace
  simp only [step?, hstage] at hstep
  simp only [note?, hstage]
  cases hstep
  obtain ⟨hrunning, rfl, hworkers⟩ := hplace
  refine .of_update hrecord (fun _ ht => ht) hrunning.2 ?_ rfl ⟨?_, hrunning, ?_⟩
  · exact .of_ne (hrunning.1.trans_ne (by decide)) rfl htells.tally
  · exact h.balance.list (by rw [hstage]; rfl) _ _ _ _
  · exact isInBatch_list _ (List.prefix_nil.mp h.balance.fed) rfl

/-- The next batch begins, unless all files were fed or the task was cancelled. -/
theorem turn_nextBatch {later : List (List Source.File)} (hstage : r.stage = .nextBatch later) :
    IsTurn S.batchSize (l.enter? r.note?) s s' r r' := by
  have hplace := h.place
  simp only [IsPlaced, hstage] at hplace
  simp only [note?, hstage]
  obtain ⟨hrunning, hbatch⟩ := hplace
  cases later with
  | nil =>
    simp only [step?, hstage] at hstep
    cases hstep
    refine .of_same hrecord htells rfl ⟨h.balance.moveTo hstage rfl rfl, hrunning, Or.inl ?_⟩
    exact hbatch.isFed (by rw [hstage]; rfl)
  | cons files later =>
    simp only [step?, hstage] at hstep
    split at hstep
    · rename_i hcancelled
      rw [TaskRegistry.isCancelled_of_record? hrecord] at hcancelled
      cases hstep
      exact .of_same hrecord htells rfl
        ⟨h.balance.moveTo hstage rfl rfl, hrunning, Or.inr hcancelled⟩
    · cases hstep
      refine .of_same hrecord htells rfl ⟨h.balance.moveTo hstage rfl rfl, hrunning, ?_⟩
      exact hbatch.begin (Setting.batchSize_pos S) h.balance (by rw [hstage]; rfl)
        (by rw [hstage]; rfl)

/-- The next file of the batch is fed, as long as the channel has room for it. -/
theorem turn_feed {files : List Source.File} {sent : Nat} {later : List (List Source.File)}
    (hstage : r.stage = .feed files sent later) :
    IsTurn S.batchSize (l.enter? r.note?) s s' r r' := by
  have hplace := h.place
  simp only [IsPlaced, hstage] at hplace
  simp only [note?, hstage]
  obtain ⟨hrunning, hbatch⟩ := hplace
  cases files with
  | nil =>
    simp only [step?, hstage] at hstep
    cases hstep
    refine .of_same hrecord htells rfl ⟨h.balance.moveTo hstage rfl rfl, hrunning, ?_⟩
    exact hbatch.move (by rw [hstage]; rfl)
  | cons file files =>
    simp only [step?, hstage] at hstep
    split at hstep
    · cases hstep
      refine .of_same hrecord htells rfl ⟨h.balance.feed hstage ?_, hrunning, ?_⟩
      · -- What is fed so far are the first files of the list, and this is the next of them.
        obtain ⟨begun, hfed, _⟩ := hbatch
        rw [hstage] at hfed
        have hprefix : l.received ++ (r.files ++ [file]) ++ files <+: l.files := by
          have htake := List.take_prefix (begun * S.batchSize) l.files
          rw [← hfed] at htake
          simpa [Stage.unfed] using htake
        exact (List.prefix_append _ files).trans hprefix
      · exact hbatch.move (by simp [hstage, Stage.unfed])
    · cases hstep

/-- The runner takes a report, or goes on to the next batch if there are no more to come. -/
theorem turn_await {remaining : Nat} {later : List (List Source.File)}
    (hstage : r.stage = .await remaining later) :
    IsTurn S.batchSize (l.enter? r.note?) s s' r r' := by
  have hplace := h.place
  simp only [IsPlaced, hstage] at hplace
  simp only [note?, hstage]
  obtain ⟨hrunning, hbatch⟩ := hplace
  cases remaining with
  | zero =>
    simp only [step?, hstage] at hstep
    cases hstep
    refine .of_same hrecord htells rfl ⟨h.balance.moveTo hstage rfl rfl, hrunning, ?_⟩
    exact hbatch.move (by rw [hstage]; rfl)
  | succ remaining =>
    simp only [step?, hstage] at hstep
    split at hstep
    · cases hstep
    all_goals
      rename_i hreports
      cases hstep
      refine .of_same hrecord htells rfl ⟨h.balance.move rfl rfl ?_ ?_, hrunning, ?_⟩
      · rw [hstage]
        rfl
      · simp [hstage, hreports, Stage.unrecorded, outcomesOf]
      · exact hbatch.move (by rw [hstage]; rfl)

/-- The record is told which file was begun, which counts for nothing. -/
theorem turn_noteFile {path : String} {remaining : Nat} {later : List (List Source.File)}
    (hstage : r.stage = .noteFile path remaining later) :
    IsTurn S.batchSize (l.enter? r.note?) s s' r r' := by
  have hplace := h.place
  simp only [IsPlaced, hstage] at hplace
  simp only [note?, hstage]
  simp only [step?, hstage] at hstep
  obtain ⟨hrunning, hbatch⟩ := hplace
  cases hstep
  refine .of_update hrecord (fun _ ht => ht) hrunning.2 ?_ rfl
    ⟨h.balance.moveTo hstage rfl rfl, hrunning, hbatch.move (by rw [hstage]; rfl)⟩
  exact ⟨htells.totalFiles, htells.tally, htells.completed⟩

/-- The outcome in the hands of the runner is counted in the record and entered in the ledger. -/
theorem turn_record {outcome : Outcome} {remaining : Nat} {later : List (List Source.File)}
    (hstage : r.stage = .record outcome remaining later) :
    IsTurn S.batchSize (l.enter? r.note?) s s' r r' := by
  have hplace := h.place
  simp only [IsPlaced, hstage] at hplace
  simp only [note?, hstage]
  simp only [step?, hstage] at hstep
  obtain ⟨hrunning, hbatch⟩ := hplace
  cases hstep
  have hsame : (recorded outcome a.task).id = a.task.id ∧
      (recorded outcome a.task).status = a.task.status ∧
      (recorded outcome a.task).totalFiles = a.task.totalFiles := by
    cases outcome <;> exact ⟨rfl, rfl, rfl⟩
  obtain ⟨_, hstatus, htotal⟩ := hsame
  refine .of_update hrecord ?_ hrunning.2 ?_ rfl
    ⟨h.balance.record hstage, ⟨hstatus.trans hrunning.1, hrunning.2⟩, hbatch.record.move ?_⟩
  · intro t ht
    cases outcome <;> exact ht
  · exact .of_ne ((hstatus.trans hrunning.1).trans_ne (by decide))
      (htotal.trans htells.totalFiles) (tally_recorded outcome htells.tally)
  · rw [hstage]
    rfl

/-- No more files are fed. -/
theorem turn_closeFiles (hstage : r.stage = .closeFiles) :
    IsTurn S.batchSize (l.enter? r.note?) s s' r r' := by
  have hplace := h.place
  simp only [IsPlaced, hstage] at hplace
  simp only [step?, hstage] at hstep
  simp only [note?, hstage]
  cases hstep
  refine .of_same hrecord htells rfl ⟨h.balance.move rfl rfl ?_ ?_, hplace⟩
  all_goals
    rw [hstage]
    rfl

/-- When all workers have ended, none of them has a file. -/
theorem turn_awaitWorkers (hstage : r.stage = .awaitWorkers) :
    IsTurn S.batchSize (l.enter? r.note?) s s' r r' := by
  have hplace := h.place
  simp only [IsPlaced, hstage] at hplace
  simp only [step?, hstage] at hstep
  simp only [note?, hstage]
  split at hstep
  · cases hstep
    exact .of_same hrecord htells rfl ⟨h.balance.moveTo hstage rfl rfl, hplace.1, hplace.2,
      List.all_eq_true.mp ‹_›⟩
  · cases hstep

/-- The task is to end without an error only if every file was recorded and none was skipped. -/
theorem turn_check (hstage : r.stage = .check) :
    IsTurn S.batchSize (l.enter? r.note?) s s' r r' := by
  have hplace := h.place
  simp only [IsPlaced, hstage] at hplace
  simp only [step?, hstage] at hstep
  simp only [note?, hstage]
  obtain ⟨hrunning, hfed, hnobody⟩ := hplace
  cases hstep
  refine .of_same hrecord htells rfl
    ⟨h.balance.moveTo hstage rfl rfl, hrunning, rfl, hnobody, fun herror => ?_⟩
  -- Without an error the task was not cancelled, so every file was fed and none skipped.
  have hgoes : a.cancelled ≠ true := by
    intro hcancelled
    rw [TaskRegistry.isCancelled_of_record? hrecord, if_pos hcancelled] at herror
    cases herror
  have hout := h.balance.outstanding
  rw [hstage, hfed.resolve_right hgoes] at hout
  refine ⟨hout, fun o ho => ?_⟩
  cases hskip : o.isSkipped with
  | false => rfl
  | true => exact absurd (h.balance.skipped o ho hskip) hgoes

/-- The task ends, completed only if nothing went wrong. What is done about its record after that
leaves the task alone. -/
theorem turn_finish {ending : Ending} (hstage : r.stage = .finish ending) :
    IsTurn S.batchSize (l.enter? r.note?) s s' r r' := by
  have hplace := h.place
  simp only [note?, hstage]
  cases ending with
  | settle id error =>
    simp only [IsPlaced, hstage] at hplace
    obtain ⟨hrunning, rfl, hnobody, hdone⟩ := hplace
    rcases TaskRegistry.transition_of_record? hrecord
      (if error.isSome then .failed else .completed) error S.now with
      ⟨t, hretained, ht, heq⟩ | ⟨hno, _⟩
    · obtain ⟨_, hid, hstatus, _⟩ := Task.moveTo?_eq_some ht
      simp only [step?, hstage, Ending.step, heq] at hstep
      cases hstep
      -- The record tells of completion only where there is no error.
      have hended : l.Tells t := by
        refine htells.moved ht fun hcompleted => hdone ?_
        cases error with
        | none => rfl
        | some e => cases hcompleted
      have hterminal : t.status.isTerminal = true := by
        rw [hstatus]
        split <;> rfl
      exact .of_update hrecord (fun _ _ => hid.trans (TaskRegistry.id_of_record? hrecord)) hretained
        hended rfl ⟨h.balance.moveTo hstage rfl rfl, hterminal, hnobody⟩
    · -- A running task may always end.
      have hcan := hno hrunning.2
      rw [hrunning.1] at hcan
      split at hcan <;> cases hcan
  | lookUp id =>
    simp only [IsPlaced, hstage] at hplace
    simp only [step?, hstage, Ending.step] at hstep
    cases hget : s.registry.get? id
    all_goals
      rw [hget] at hstep
      cases hstep
      exact .of_same hrecord htells rfl ⟨h.balance.moveTo hstage rfl rfl, hplace⟩
  | announce task =>
    simp only [IsPlaced, hstage] at hplace
    simp only [step?, hstage, Ending.step] at hstep
    cases hstep
    exact ⟨rfl, rfl, rfl, .refl _, a, hrecord, htells, h.balance.moveTo hstage rfl rfl, hplace⟩
  | evict =>
    simp only [IsPlaced, hstage] at hplace
    simp only [step?, hstage, Ending.step] at hstep
    cases hstep
    exact .of_handled hrecord (TaskRegistry.isHandled_evict _) htells rfl
      ⟨h.balance.moveTo hstage rfl rfl, hplace⟩

/-- The permit is given back. -/
theorem turn_giveBack (hstage : r.stage = .giveBack) :
    IsTurn S.batchSize (l.enter? r.note?) s s' r r' := by
  have hplace := h.place
  simp only [IsPlaced, hstage] at hplace
  simp only [step?, hstage] at hstep
  simp only [note?, hstage]
  cases hstep
  exact ⟨rfl, rfl, rfl, .refl _, a, hrecord, htells, h.balance.moveTo hstage rfl rfl, hplace⟩

/-- A turn of a runner keeps it in order. -/
theorem runner : IsTurn S.batchSize (l.enter? r.note?) s s' r r' := by
  cases hstage : r.stage with
  | start => exact h.turn_start hrecord htells hstep hstage
  | enumerate => exact h.turn_enumerate hrecord htells hstep hstage
  | expect snapshot => exact h.turn_expect hrecord htells hstep hstage
  | nextBatch later => exact h.turn_nextBatch hrecord htells hstep hstage
  | feed files sent later => exact h.turn_feed hrecord htells hstep hstage
  | await remaining later => exact h.turn_await hrecord htells hstep hstage
  | noteFile path remaining later => exact h.turn_noteFile hrecord htells hstep hstage
  | record outcome remaining later => exact h.turn_record hrecord htells hstep hstage
  | closeFiles => exact h.turn_closeFiles hrecord htells hstep hstage
  | awaitWorkers => exact h.turn_awaitWorkers hrecord htells hstep hstage
  | check => exact h.turn_check hrecord htells hstep hstage
  | finish ending => exact h.turn_finish hrecord htells hstep hstage
  | giveBack => exact h.turn_giveBack hrecord htells hstep hstage
  | ended =>
    simp only [step?, hstage] at hstep
    cases hstep

end

end Runner.IsInOrder

/-! ### Workers -/

/-- A worker changes no record, and nothing of its runner but the channels between them. -/
theorem Worker.step?_frame {w w' : Worker} (h : w.step? S s r = some (s', r', w')) :
    s'.registry = s.registry ∧ s'.queue = s.queue ∧ s'.issued = s.issued ∧ r'.job = r.job ∧
      r'.workers = r.workers ∧ w.hasEnded = false := by
  obtain ⟨stage, parsers⟩ := w
  cases stage with
  | idle =>
    simp only [step?] at h
    split at h
    · cases h
      exact ⟨rfl, rfl, rfl, rfl, rfl, rfl⟩
    · split at h <;> cases h
      exact ⟨rfl, rfl, rfl, rfl, rfl, rfl⟩
  | check file | begin file | report outcome =>
    cases h
    exact ⟨rfl, rfl, rfl, rfl, rfl, rfl⟩
  | process file =>
    simp only [step?, Option.some.injEq, Prod.mk.injEq] at h
    obtain ⟨rfl, rfl, _⟩ := h
    exact ⟨rfl, rfl, rfl, rfl, rfl, rfl⟩
  | ended => cases h

/-- Workers neither list files nor record outcomes. -/
theorem Worker.enter?_note (l : Ledger) (w : Worker) (r : Runner) :
    (l.enter? (w.note? r)).files = l.files ∧ (l.enter? (w.note? r)).recorded = l.recorded := by
  obtain ⟨stage, parsers⟩ := w
  cases stage with
  | idle =>
    rw [note?]
    cases r.files <;> exact ⟨rfl, rfl⟩
  | check file | begin file | process file | report outcome | ended => exact ⟨rfl, rfl⟩

/-- For the rest of the scheduler, a turn of a worker is one of its runner. -/
theorem Runner.IsInOrder.worker_turn {k : Nat} {w w' : Worker} (h : r.IsInOrder batchSize l a)
    (hrecord : s.registry.record? r.job.id = some a) (htells : l.Tells a.task)
    (hk : r.workers[k]? = some w) (hstep : w.step? S s r = some (s', r', w')) :
    IsTurn batchSize (l.enter? (w.note? r)) s s' r { r' with workers := r'.workers.set k w' } := by
  obtain ⟨hregistry, hqueue, hissued, hjob, hworkers, hlive⟩ := Worker.step?_frame hstep
  have hrunning := h.place.isRunning (List.mem_of_getElem? hk) hlive
  obtain ⟨hfiles, hrecorded⟩ := Worker.enter?_note l w r
  refine ⟨hjob, hqueue, hissued, ?_, a, ?_, ?_, h.worker hrecord hk hstep⟩
  · rw [hregistry]
    exact .refl _
  · rwa [hregistry]
  · refine .of_ne (hrunning.1.trans_ne (by decide)) ?_ ?_
    · rw [hfiles, htells.totalFiles]
    · rw [hrecorded, htells.tally]

end CodeIndex.Scheduler
