import CodeIndex.Proofs.Scheduler.Jobs
import CodeIndex.Proofs.Scheduler.Log
/-!
# The accounts of a runner

At any time every file of a task is in one place: not fed yet, in the channel to the workers, in the
hands of a worker, in a report that nobody has read, with the runner, or in the record of the task.
`Runner.Balances` says that these places add up to what the ledger of the task says, whatever the
order in which the workers and the runner take their turns, and `Runner.IsPlaced` what the runner
may rely on where it stands. Both survive every turn of a worker (`Runner.IsInOrder.worker`).
-/

namespace CodeIndex

/-! ### Outcomes -/

namespace Ingest.Outcome

/-- The file that ended so. -/
def path : Outcome → String
  | ingested path _ _ _ | failed path _ | skipped path => path

def isSkipped : Outcome → Bool
  | skipped _ => true
  | _ => false

def isFailed : Outcome → Bool
  | failed _ _ => true
  | _ => false

/-- The chunks that were taken in. -/
def chunks : Outcome → Nat
  | ingested _ chunks _ _ => chunks
  | _ => 0

/-- The triples that were taken in. -/
def triples : Outcome → Nat
  | ingested _ _ triples _ => triples
  | _ => 0

end Ingest.Outcome

/-- What a task counts when these outcomes are entered. -/
def Tally.ofOutcomes (outcomes : List Ingest.Outcome) : Tally where
  filesProcessed := outcomes.countP fun o => !o.isSkipped
  filesFailed := outcomes.countP (·.isFailed)
  chunksEmitted := (outcomes.map (·.chunks)).sum
  triplesEmitted := (outcomes.map (·.triples)).sum

namespace Ingest

variable {σ : Type} (p : Processor σ) (ctx : Context)

theorem path_save (a : Analysis) (d : Desk σ) :
    (save p ctx a d).1.path = a.resource.relativePath ∧ (save p ctx a d).1.isSkipped = false := by
  simp only [save]
  split <;> exact ⟨rfl, rfl⟩

/-- A file that is processed ends under its own path and is not skipped. -/
theorem path_process (file : Source.File) (cache : ParserCache) (d : Desk σ) :
    (process p ctx file cache d).1.path = file.path ∧
      (process p ctx file cache d).1.isSkipped = false := by
  simp only [process]
  split
  · exact ⟨rfl, rfl⟩
  · exact path_save p ctx (analyze p ctx file.path _ cache).1 d

end Ingest

namespace Scheduler

open CodeIndex.Ingest (Outcome)

theorem tally_recorded {outcomes : List Outcome} {t : Task} (outcome : Outcome)
    (h : t.tally = .ofOutcomes outcomes) :
    (recorded outcome t).tally = .ofOutcomes (outcomes ++ [outcome]) := by
  rw [Task.tally, Tally.ofOutcomes, Tally.mk.injEq] at h
  obtain ⟨hprocessed, hfailed, hchunks, htriples⟩ := h
  cases outcome <;>
    simp [recorded, Task.tally, Tally.ofOutcomes, Task.countIngested, Task.countFailed,
      Outcome.isSkipped, Outcome.isFailed, Outcome.chunks, Outcome.triples, hprocessed, hfailed,
      hchunks, htriples]

/-! ### Places -/

/-- The paths of files, as often as they come. -/
def filePaths (files : List Source.File) : Multiset String :=
  (files.map (·.path) : List String)

/-- The paths of outcomes, as often as they come. -/
def outcomePaths (outcomes : List Outcome) : Multiset String :=
  (outcomes.map (·.path) : List String)

theorem filePaths_append (xs ys : List Source.File) :
    filePaths (xs ++ ys) = filePaths xs + filePaths ys := by
  rw [filePaths, List.map_append, ← Multiset.coe_add]
  rfl

theorem outcomePaths_append (xs ys : List Outcome) :
    outcomePaths (xs ++ ys) = outcomePaths xs + outcomePaths ys := by
  rw [outcomePaths, List.map_append, ← Multiset.coe_add]
  rfl

theorem outcomePaths_le_append (xs ys : List Outcome) :
    outcomePaths xs ≤ outcomePaths (xs ++ ys) := by
  rw [outcomePaths_append]
  exact Multiset.le_add_right _ _

theorem card_filePaths (files : List Source.File) : (filePaths files).card = files.length := by
  rw [filePaths, Multiset.coe_card, List.length_map]

theorem card_outcomePaths (outcomes : List Outcome) :
    (outcomePaths outcomes).card = outcomes.length := by
  rw [outcomePaths, Multiset.coe_card, List.length_map]

/-- The path of the file that a worker has in its hands. -/
def Worker.paths (w : Worker) : Multiset String :=
  match w.stage with
  | .check file | .begin file | .process file => {file.path}
  | .report outcome => {outcome.path}
  | .idle | .ended => 0

/-- The file that a worker has taken and not processed yet. -/
def Worker.unprocessed (w : Worker) : Multiset Source.File :=
  match w.stage with
  | .check file | .begin file | .process file => {file}
  | .report _ | .idle | .ended => 0

/-- The outcomes in reports. -/
def outcomesOf (reports : List Report) : List Outcome :=
  reports.filterMap fun
    | .finished outcome => some outcome
    | .started _ => none

namespace Runner.Stage

/-- The files of the batch that are still to be fed. -/
def unfed : Stage → List Source.File
  | feed files _ _ => files
  | _ => []

/-- The outcome that the runner has taken and not recorded yet. -/
def unrecorded : Stage → List Outcome
  | record outcome _ _ => [outcome]
  | _ => []

/-- The files that were fed and whose outcomes are not recorded. -/
def outstanding : Stage → Nat
  | feed _ sent _ => sent
  | await remaining _ | noteFile _ remaining _ => remaining
  | record _ remaining _ => remaining + 1
  | _ => 0

end Runner.Stage

/-! ### Invariants -/

namespace Runner

/-- The places of all files that were fed add up. -/
structure Balances (batchSize : Nat) (l : Ledger) (cancelled : Bool) (r : Runner) : Prop where
  /-- Files are fed and taken in order. -/
  fed : l.received ++ r.files <+: l.files
  /-- A file that was taken is with a worker or was reported. -/
  held : filePaths l.received = (r.workers.map Worker.paths).sum + outcomePaths l.finished
  processed : (l.processed : Multiset Source.File) + (r.workers.map Worker.unprocessed).sum
    ≤ l.received
  /-- Reports are taken and recorded in order. -/
  reported : l.finished = l.recorded ++ (r.stage.unrecorded ++ outcomesOf r.reports)
  outstanding : l.recorded.length + r.stage.outstanding = (l.received ++ r.files).length
  /-- A file of a batch is taken once all batches before it are recorded. -/
  barrier : ∀ b, b * batchSize < l.received.length →
    filePaths (l.files.take (b * batchSize)) ≤ outcomePaths l.recorded
  /-- Files are only skipped after a cancellation. -/
  skipped : ∀ o ∈ l.finished, o.isSkipped = true → cancelled = true
  skipping : ∀ w ∈ r.workers, ∀ o, w.stage = .report o → o.isSkipped = true → cancelled = true

/-- The runner has begun some batches and is to begin the later ones. -/
def IsInBatch (batchSize : Nat) (l : Ledger) (r : Runner) (later : List (List Source.File)) :
    Prop :=
  ∃ begun, l.received ++ r.files ++ r.stage.unfed = l.files.take (begun * batchSize) ∧
    later = groups batchSize (l.files.drop (begun * batchSize)) ∧
    filePaths (l.files.take ((begun - 1) * batchSize)) ≤ outcomePaths l.recorded

/-- Every file was fed, or the task was cancelled. -/
def IsFed (l : Ledger) (cancelled : Bool) (r : Runner) : Prop :=
  l.received ++ r.files = l.files ∨ cancelled = true

/-- All workers have ended. -/
def HasNoWorker (r : Runner) : Prop :=
  ∀ w ∈ r.workers, w.hasEnded = true

theorem hasNoWorker_of_nil {r : Runner} (h : r.workers = []) : r.HasNoWorker := by
  rw [HasNoWorker, h]
  exact nofun

end Runner

/-- Every file was recorded, and none was skipped. -/
def Ledger.IsDone (l : Ledger) : Prop :=
  l.recorded.length = l.files.length ∧ ∀ o ∈ l.finished, o.isSkipped = false

/-- What holds where a runner stands. -/
def Runner.IsPlaced (batchSize : Nat) (l : Ledger) (a : TaskRecord) (r : Runner) : Prop :=
  match r.stage with
  | .start => a.IsUnstarted ∧ l = .empty ∧ r.workers = []
  | .enumerate | .expect _ => a.IsRunning ∧ l = .empty ∧ r.workers = []
  | .nextBatch later | .feed _ _ later | .await _ later | .noteFile _ _ later | .record _ _ later =>
    a.IsRunning ∧ r.IsInBatch batchSize l later
  | .closeFiles | .awaitWorkers => a.IsRunning ∧ r.IsFed l a.cancelled
  | .check => a.IsRunning ∧ r.IsFed l a.cancelled ∧ r.HasNoWorker
  | .finish (.settle id error) => a.IsRunning ∧ id = r.job.id ∧ r.HasNoWorker ∧
      (error = none → l.IsDone)
  | .finish _ | .giveBack | .ended => a.task.status.isTerminal = true ∧ r.HasNoWorker

/-- The runner of a task, its ledger and its record agree. -/
structure Runner.IsInOrder (batchSize : Nat) (l : Ledger) (a : TaskRecord) (r : Runner) :
    Prop where
  balance : r.Balances batchSize l a.cancelled
  place : r.IsPlaced batchSize l a

/-- The record of a task tells what the ledger says. -/
structure Ledger.Tells (l : Ledger) (t : Task) : Prop where
  totalFiles : t.totalFiles = l.files.length
  tally : t.tally = .ofOutcomes l.recorded
  completed : t.status = .completed → l.IsDone

/-- As long as a task has not completed, only its numbers matter. -/
theorem Ledger.Tells.of_ne {l : Ledger} {t : Task} (hstatus : t.status ≠ .completed)
    (htotal : t.totalFiles = l.files.length) (htally : t.tally = .ofOutcomes l.recorded) :
    l.Tells t :=
  ⟨htotal, htally, fun hcompleted => absurd hcompleted hstatus⟩

variable {batchSize : Nat} {l : Ledger} {a b : TaskRecord} {cancelled : Bool} {r r' : Runner}

/-- A runner that has done nothing yet has nothing to account for. -/
theorem Runner.balances_ofJob (job : Job) (now : Time.Timestamp) :
    (Runner.ofJob job now).Balances batchSize .empty cancelled where
  fed := List.nil_prefix
  held := rfl
  processed := le_refl _
  reported := rfl
  outstanding := rfl
  barrier := nofun
  skipped := nofun
  skipping := nofun

/-! ### Records that somebody handles -/

theorem Runner.Balances.cancel {cancelled' : Bool} (h : r.Balances batchSize l cancelled)
    (hcancel : cancelled = true → cancelled' = true) : r.Balances batchSize l cancelled' :=
  { h with
    skipped := fun o ho hskip => hcancel (h.skipped o ho hskip)
    skipping := fun w hw o ho hskip => hcancel (h.skipping w hw o ho hskip) }

/-- Nobody disturbs the runner of a task by handling the record. -/
theorem Runner.IsInOrder.handled (h : r.IsInOrder batchSize l a) (hab : a.IsHandled b) :
    r.IsInOrder batchSize l b := by
  refine ⟨h.balance.cancel hab.cancelled, ?_⟩
  have hplace := h.place
  have hfed : r.IsFed l a.cancelled → r.IsFed l b.cancelled := Or.imp_right hab.cancelled
  obtain ⟨job, stage, context, files, filesClosed, reports, workers⟩ := r
  cases stage with
  | start => exact ⟨hab.isUnstarted hplace.1, hplace.2⟩
  | enumerate | expect snapshot | nextBatch later | feed files sent later | await remaining later
  | noteFile path remaining later | record outcome remaining later =>
    exact ⟨hab.isRunning hplace.1, hplace.2⟩
  | closeFiles | awaitWorkers => exact ⟨hab.isRunning hplace.1, hfed hplace.2⟩
  | check => exact ⟨hab.isRunning hplace.1, hfed hplace.2.1, hplace.2.2⟩
  | finish ending =>
    cases ending with
    | settle id error => exact ⟨hab.isRunning hplace.1, hplace.2⟩
    | lookUp id | announce task | evict => exact ⟨hab.isTerminal hplace.1, hplace.2⟩
  | giveBack | ended => exact ⟨hab.isTerminal hplace.1, hplace.2⟩

/-! ### Counting -/

namespace Runner.Balances

variable (h : r.Balances batchSize l cancelled)
include h

theorem length_finished_le : l.finished.length ≤ l.received.length := by
  have hcard := congrArg Multiset.card h.held
  rw [Multiset.card_add, card_filePaths, card_outcomePaths] at hcard
  omega

theorem recorded_prefix_finished : l.recorded <+: l.finished :=
  ⟨_, h.reported.symm⟩

/-- No more outcomes are recorded than files were listed. -/
theorem length_recorded_le : l.recorded.length ≤ l.files.length := by
  have hrecorded := h.recorded_prefix_finished.length_le
  have hfinished := h.length_finished_le
  have hfed := h.fed.length_le
  rw [List.length_append] at hfed
  omega

/-- When no outcome is outstanding, the channel is empty and every file that was taken is
recorded. -/
theorem of_outstanding_eq_zero (hout : r.stage.outstanding = 0) :
    r.files = [] ∧ l.recorded.length = l.received.length := by
  have hsum := h.outstanding
  rw [hout, List.length_append] at hsum
  have hrecorded := h.recorded_prefix_finished.length_le
  have hfinished := h.length_finished_le
  constructor
  · exact List.eq_nil_of_length_eq_zero (by omega)
  · omega

/-- Once as many outcomes are recorded as files were taken, they are the outcomes of these files. -/
theorem outcomePaths_recorded (hall : l.recorded.length = l.received.length) :
    filePaths l.received ≤ outcomePaths l.recorded := by
  have hrecorded := h.recorded_prefix_finished
  have hfinished := h.length_finished_le
  have heq : l.recorded = l.finished :=
    hrecorded.eq_of_length_le (by omega)
  have hle : outcomePaths l.finished ≤ filePaths l.received := by
    rw [h.held]
    exact Multiset.le_add_left _ _
  have hcard : (filePaths l.received).card ≤ (outcomePaths l.finished).card := by
    rw [card_filePaths, card_outcomePaths, ← heq, hall]
  rw [heq]
  exact (Multiset.eq_of_le_of_card_le hle hcard).ge

end Runner.Balances

theorem filePaths_take_le {m n : Nat} (h : m ≤ n) (files : List Source.File) :
    filePaths (files.take m) ≤ filePaths (files.take n) :=
  Multiset.coe_le.mpr ((List.take_sublist_take_left h).map _).subperm

/-- While a file is in the channel, all batches before its own are recorded. -/
theorem Runner.IsInOrder.recorded_of_mem (h : r.IsInOrder batchSize l a) (hfiles : r.files ≠ []) :
    ∀ b, b * batchSize ≤ l.received.length →
      filePaths (l.files.take (b * batchSize)) ≤ outcomePaths l.recorded := by
  intro b hb
  have hbatch : ∀ later, r.IsInBatch batchSize l later →
      filePaths (l.files.take (b * batchSize)) ≤ outcomePaths l.recorded := by
    rintro later ⟨begun, hfed, _, hdone⟩
    refine (filePaths_take_le ?_ _).trans hdone
    have hlength := congrArg List.length hfed
    have hpos := List.length_pos_iff.mpr hfiles
    have hle := List.length_take_le (begun * batchSize) l.files
    simp only [List.length_append] at hlength
    have hlt : b < begun := Nat.lt_of_mul_lt_mul_right (a := batchSize) (by omega)
    exact Nat.mul_le_mul_right _ (by omega)
  have hempty : r.stage.outstanding = 0 → False :=
    fun hout => hfiles (h.balance.of_outstanding_eq_zero hout).1
  have hplace := h.place
  obtain ⟨job, stage, context, files, filesClosed, reports, workers⟩ := r
  cases stage with
  | nextBatch later | feed unfed sent later | await remaining later
  | noteFile path remaining later | record outcome remaining later => exact hbatch _ hplace.2
  | start | enumerate | expect snapshot | closeFiles | awaitWorkers | check | finish ending
  | giveBack | ended => exact (hempty rfl).elim

/-! ### Turns of workers -/

namespace Runner.Balances

variable {k : Nat} {w w' : Worker}

section

variable (h : r.Balances batchSize l cancelled)
include h

theorem skipping_set
    (hskipping : ∀ o, w'.stage = .report o → o.isSkipped = true → cancelled = true) :
    ∀ v ∈ r.workers.set k w', ∀ o, v.stage = .report o → o.isSkipped = true →
      cancelled = true := by
  intro v hv
  rcases List.mem_or_eq_of_mem_set hv with hmem | rfl
  · exact h.skipping v hmem
  · exact hskipping

variable (hk : r.workers[k]? = some w)
include hk

/-- A worker goes on with the file that it has in its hands. -/
theorem goOn (hpaths : w'.paths = w.paths) (hunprocessed : w'.unprocessed ≤ w.unprocessed)
    (hskipping : ∀ o, w'.stage = .report o → o.isSkipped = true → cancelled = true) :
    Balances batchSize l cancelled { r with workers := r.workers.set k w' } :=
  { h with
    held := by
      have hsum := sum_map_set Worker.paths w' hk
      rw [hpaths, add_left_inj] at hsum
      rw [hsum, h.held]
    processed := by
      have hsum := sum_map_set Worker.unprocessed w' hk
      have hle : ((r.workers.set k w').map Worker.unprocessed).sum
          ≤ (r.workers.map Worker.unprocessed).sum := by
        rw [← add_le_add_iff_right w.unprocessed, hsum]
        exact add_le_add_right hunprocessed _
      exact (add_le_add_right hle _).trans h.processed
    skipping := h.skipping_set hskipping }

/-- A worker takes a file from the channel. -/
theorem receive {file : Source.File} {files : List Source.File} (hfiles : r.files = file :: files)
    (hw : w.paths = 0) (hw' : w.unprocessed = 0) (hpaths : w'.paths = {file.path})
    (hunprocessed : w'.unprocessed = {file}) (hskipping : ∀ o, w'.stage ≠ .report o)
    (hbarrier : ∀ b, b * batchSize ≤ l.received.length →
      filePaths (l.files.take (b * batchSize)) ≤ outcomePaths l.recorded) :
    Balances batchSize (l.enter (.received file)) cancelled
      { r with files := files, workers := r.workers.set k w' } where
  fed := by
    have hfed := h.fed
    rwa [hfiles, ← List.singleton_append, ← List.append_assoc] at hfed
  held := by
    have hsum := sum_map_set Worker.paths w' hk
    rw [hw, add_zero, hpaths] at hsum
    show filePaths (l.received ++ [file]) = _ + outcomePaths l.finished
    rw [filePaths_append, h.held, hsum]
    exact add_right_comm _ _ _
  processed := by
    have hsum := sum_map_set Worker.unprocessed w' hk
    rw [hw', add_zero, hunprocessed] at hsum
    show _ + _ ≤ ((l.received ++ [file] : List Source.File) : Multiset Source.File)
    rw [hsum, ← add_assoc, ← Multiset.coe_add]
    exact add_le_add_left h.processed _
  reported := h.reported
  outstanding := by
    have hout := h.outstanding
    simpa [Ledger.enter, hfiles] using hout
  barrier := by
    intro b hb
    refine hbarrier b ?_
    simpa [Ledger.enter, Nat.lt_succ_iff] using hb
  skipped := h.skipped
  skipping := h.skipping_set fun o ho => absurd ho (hskipping o)

/-- A worker processes the file that it has in its hands. -/
theorem process {file : Source.File} (hun : w.unprocessed = {file})
    (hpaths : w'.paths = w.paths) (hunprocessed : w'.unprocessed = 0)
    (hskipping : ∀ o, w'.stage = .report o → o.isSkipped = true → cancelled = true) :
    Balances batchSize (l.enter (.processed file)) cancelled
      { r with workers := r.workers.set k w' } :=
  { h.goOn hk hpaths (hunprocessed.trans_le (Multiset.zero_le _)) hskipping with
    processed := by
      have hsum := sum_map_set Worker.unprocessed w' hk
      rw [hunprocessed, hun, add_zero] at hsum
      show ((l.processed ++ [file] : List Source.File) : Multiset Source.File) + _ ≤ _
      rw [← Multiset.coe_add, add_assoc, add_comm (↑[file] : Multiset Source.File)]
      exact (le_of_eq (congrArg _ hsum)).trans h.processed }

/-- A worker reports the file that it has in its hands finished. -/
theorem report {outcome : Outcome} (hw : w.stage = .report outcome) (hpaths : w'.paths = 0)
    (hunprocessed : w'.unprocessed = 0) (hskipping : ∀ o, w'.stage ≠ .report o) :
    Balances batchSize (l.enter (.finished outcome)) cancelled
      { r with reports := r.reports ++ [.finished outcome], workers := r.workers.set k w' } where
  fed := h.fed
  held := by
    have hsum := sum_map_set Worker.paths w' hk
    have hwp : w.paths = {outcome.path} := by rw [Worker.paths, hw]
    rw [hpaths, add_zero, hwp] at hsum
    show filePaths l.received = _ + outcomePaths (l.finished ++ [outcome])
    rw [outcomePaths_append, h.held, ← hsum, add_right_comm, ← add_assoc]
    rfl
  processed := by
    have hsum := sum_map_set Worker.unprocessed w' hk
    have hwu : w.unprocessed = 0 := by rw [Worker.unprocessed, hw]
    rw [hunprocessed, hwu, add_zero, add_zero] at hsum
    show _ + ((r.workers.set k w').map Worker.unprocessed).sum ≤ _
    rw [hsum]
    exact h.processed
  reported := by
    show l.finished ++ [outcome] = _
    simp [h.reported, outcomesOf, Ledger.enter]
  outstanding := h.outstanding
  barrier := h.barrier
  skipped := by
    intro o ho
    rcases List.mem_append.mp ho with hmem | hmem
    · exact h.skipped o hmem
    · rw [List.mem_singleton] at hmem
      subst hmem
      exact h.skipping w (List.mem_of_getElem? hk) o hw
  skipping := h.skipping_set fun o ho => absurd ho (hskipping o)

end

end Runner.Balances

namespace Runner.IsPlaced

variable {w : Worker}

/-- A worker that has not ended works for a task that runs. -/
theorem isRunning (h : r.IsPlaced batchSize l a) (hw : w ∈ r.workers) (hlive : w.hasEnded = false) :
    a.IsRunning := by
  have hended : ¬r.HasNoWorker := by
    intro hall
    rw [hall w hw] at hlive
    cases hlive
  obtain ⟨job, stage, context, files, filesClosed, reports, workers⟩ := r
  cases stage with
  | start =>
    obtain ⟨_, _, rfl⟩ := h
    cases hw
  | enumerate | expect snapshot | nextBatch later | feed files sent later | await remaining later
  | noteFile path remaining later | record outcome remaining later | closeFiles | awaitWorkers
  | check => exact h.1
  | finish ending =>
    cases ending with
    | settle id error => exact h.1
    | lookUp id | announce task | evict => exact absurd h.2 hended
  | giveBack | ended => exact absurd h.2 hended

/-- What the runner relies on does not change while workers go on with what was fed. -/
theorem worker {l' : Ledger} (h : r.IsPlaced batchSize l a) (hw : w ∈ r.workers)
    (hlive : w.hasEnded = false) (hstage : r'.stage = r.stage)
    (hfed : l'.received ++ r'.files = l.received ++ r.files) (hfiles : l'.files = l.files)
    (hrecorded : l'.recorded = l.recorded) : r'.IsPlaced batchSize l' a := by
  have hrunning := h.isRunning hw hlive
  have hended : ¬r.HasNoWorker := by
    intro hall
    rw [hall w hw] at hlive
    cases hlive
  have hbatch : ∀ later, r.IsInBatch batchSize l later → r'.IsInBatch batchSize l' later := by
    intro later hin
    rwa [IsInBatch, hfed, hstage, hfiles, hrecorded]
  have hisFed : r.IsFed l a.cancelled → r'.IsFed l' a.cancelled := by
    intro hin
    rwa [IsFed, hfed, hfiles]
  obtain ⟨job, stage, context, files, filesClosed, reports, workers⟩ := r
  simp only [IsPlaced, hstage]
  cases stage with
  | start | enumerate | expect snapshot =>
    obtain ⟨_, _, rfl⟩ := h
    cases hw
  | nextBatch later | feed files sent later | await remaining later
  | noteFile path remaining later | record outcome remaining later =>
    exact ⟨hrunning, hbatch _ h.2⟩
  | closeFiles | awaitWorkers => exact ⟨hrunning, hisFed h.2⟩
  | check => exact absurd h.2.2 hended
  | finish ending =>
    cases ending with
    | settle id error => exact absurd h.2.2.1 hended
    | lookUp id | announce task | evict => exact absurd h.2 hended
  | giveBack | ended => exact absurd h.2 hended

end Runner.IsPlaced

/-- The ledger with what is noted in a turn. -/
def Ledger.enter? (l : Ledger) (note : Option Note) : Ledger :=
  note.elim l l.enter

/-- What a runner or its worker notes is entered in the ledger of its task. -/
theorem enterNote_self (ledgers : String → Ledger) (id : String) (note : Option Note) :
    enterNote ledgers (note.map (id, ·)) id = (ledgers id).enter? note := by
  cases note with
  | none => rfl
  | some note => exact Function.update_self ..

theorem enterNote_of_ne (ledgers : String → Ledger) {id j : String} (note : Option Note)
    (hj : j ≠ id) : enterNote ledgers (note.map (id, ·)) j = ledgers j := by
  cases note with
  | none => rfl
  | some note => exact Function.update_of_ne hj ..

variable {σ : Type} {S : Setting σ} {s s' : Shared σ}

/-- A turn of a worker keeps a runner in order. -/
theorem Runner.IsInOrder.worker {k : Nat} {w w' : Worker} (h : r.IsInOrder batchSize l a)
    (hrecord : s.registry.record? r.job.id = some a) (hk : r.workers[k]? = some w)
    (hstep : w.step? S s r = some (s', r', w')) :
    IsInOrder batchSize (l.enter? (w.note? r)) a { r' with workers := r'.workers.set k w' } := by
  obtain ⟨stage, parsers⟩ := w
  have hw := List.mem_of_getElem? hk
  cases stage with
  | idle =>
    simp only [Worker.step?] at hstep
    split at hstep
    · rename_i file files hfiles
      cases hstep
      have hnote : Worker.note? r ⟨.idle, parsers⟩ = some (.received file) := by
        simp only [Worker.note?, hfiles, List.head?_cons, Option.map_some]
      rw [hnote]
      refine ⟨h.balance.receive hk hfiles rfl rfl rfl rfl nofun ?_, ?_⟩
      · exact h.recorded_of_mem (hfiles ▸ List.cons_ne_nil _ _)
      · refine h.place.worker hw rfl rfl ?_ rfl rfl
        simp [Ledger.enter?, Ledger.enter, hfiles]
    · rename_i hfiles
      split at hstep
      · cases hstep
        have hnote : Worker.note? r ⟨.idle, parsers⟩ = none := by
          simp only [Worker.note?, hfiles, List.head?_nil, Option.map_none]
        rw [hnote]
        exact ⟨h.balance.goOn hk rfl (le_refl _) nofun, h.place.worker hw rfl rfl rfl rfl rfl⟩
      · cases hstep
  | check file =>
    cases hstep
    rw [TaskRegistry.isCancelled_of_record? hrecord]
    refine ⟨h.balance.goOn hk ?_ ?_ ?_, h.place.worker hw rfl rfl rfl rfl rfl⟩
    · split <;> rfl
    · split
      · exact Multiset.zero_le _
      · exact le_refl _
    · intro o ho _
      split at ho
      · assumption
      · cases ho
  | begin file =>
    cases hstep
    -- That a file was started is no outcome.
    have hreported : l.finished
        = l.recorded ++ (r.stage.unrecorded ++ outcomesOf (r.reports ++ [.started file.path])) := by
      rw [h.balance.reported]
      simp [outcomesOf]
    have hbalance : Balances batchSize l a.cancelled
        { r with workers := r.workers.set k ⟨.process file, parsers⟩ } :=
      h.balance.goOn hk rfl (le_refl _) nofun
    exact ⟨{ hbalance with reported := hreported }, h.place.worker hw rfl rfl rfl rfl rfl⟩
  | process file =>
    simp only [Worker.step?, Option.some.injEq, Prod.mk.injEq] at hstep
    obtain ⟨_, rfl, rfl⟩ := hstep
    obtain ⟨hpath, hskip⟩ := Ingest.path_process S.processor r.context file parsers s.desk
    refine ⟨h.balance.process hk rfl ?_ rfl ?_, h.place.worker hw rfl rfl rfl rfl rfl⟩
    · exact congrArg (fun path => ({path} : Multiset String)) hpath
    · intro o ho hskipped
      rw [Worker.Stage.report.injEq] at ho
      rw [← ho, hskip] at hskipped
      cases hskipped
  | report outcome =>
    cases hstep
    exact ⟨h.balance.report hk rfl rfl rfl nofun, h.place.worker hw rfl rfl rfl rfl rfl⟩
  | ended => cases hstep

end Scheduler
end CodeIndex
