import CodeIndex.Proofs.Scheduler.History
import CodeIndex.Proofs.Task.Changes
/-!
# What a turn can be

Everything that the end of a task, a call or a runner can do in one turn, each written out once
(`Ending.Turn`, `Call.Turn`, `Runner.Turn`), as the turns of the dispatcher are (`Dispatcher.Turn`).
What these relations leave out changes nothing that is shared. Later modules take turns apart by
these cases and never unfold the moves themselves.

Whatever the turn, the scheduler only moves forward (`Shared.Advances`): it is not reopened, no
cancellation is taken back, and an ended task stays as it ended.
-/

namespace CodeIndex.Scheduler

variable {σ : Type} {S : Setting σ} {s s' s'' : Shared σ}

/-! ### Moving forward -/

/-- Nothing that has come to an end is taken back. -/
structure Shared.Advances (s s' : Shared σ) : Prop where
  shuttingDown : s.shuttingDown = true → s'.shuttingDown = true
  queueClosed : s.queueClosed = true → s'.queueClosed = true
  isCancelled : ∀ j, s.registry.isCancelled j = true → s'.registry.isCancelled j = true
  ended : ∀ j t, s.registry.lastSeen? j = some t → t.status.isTerminal = true →
    s'.registry.lastSeen? j = some t

namespace Shared.Advances

theorem refl (s : Shared σ) : s.Advances s :=
  ⟨fun h => h, fun h => h, fun _ h => h, fun _ _ h _ => h⟩

/-- Who keeps all tasks only has to leave the flags alone. -/
theorem of_keeps (hregistry : s.registry.Keeps s'.registry)
    (hshutting : s'.shuttingDown = s.shuttingDown) (hclosed : s'.queueClosed = s.queueClosed) :
    s.Advances s' where
  shuttingDown := by
    rw [hshutting]
    exact fun h => h
  queueClosed := by
    rw [hclosed]
    exact fun h => h
  isCancelled := hregistry.isCancelled
  ended := fun j t ht _ => (hregistry.lastSeen? j).trans ht

theorem of_moves {id : String} {next : TaskStatus} {error : Option String}
    (hregistry : s.registry.Moves s'.registry id next error)
    (hshutting : s'.shuttingDown = s.shuttingDown) (hclosed : s'.queueClosed = s.queueClosed) :
    s.Advances s' where
  shuttingDown := by
    rw [hshutting]
    exact fun h => h
  queueClosed := by
    rw [hclosed]
    exact fun h => h
  isCancelled := by
    intro j hj
    rw [hregistry.isCancelled]
    exact hj
  ended := fun _ _ => hregistry.lastSeen?_of_isTerminal

end Shared.Advances

/-! ### Ends of tasks -/

/-- What is done at the end of a task, and what is left to do then. -/
inductive Ending.Turn (S : Setting σ) (s : Shared σ) : Ending → Shared σ → Option Ending → Prop
  | settles {id : String} {error : Option String} {r : TaskRegistry}
      (moves : s.registry.Moves r id (if error.isSome then .failed else .completed) error) :
      Turn S s (.settle id error) (s.withRegistry r) (some (.lookUp id))
  /-- The task has ended already, or has not begun and may not end so. -/
  | stays {id : String} {error : Option String}
      (stuck : ∀ t, s.registry.get? id = some t →
        t.status.canMoveTo (if error.isSome then .failed else .completed) = false) :
      Turn S s (.settle id error) s none
  | finds {id : String} {t : Task} (found : s.registry.get? id = some t) :
      Turn S s (.lookUp id) s (some (.announce t))
  /-- The record was let go before it was read. -/
  | misses {id : String} (gone : s.registry.get? id = none) :
      Turn S s (.lookUp id) s (some .evict)
  | announces {t : Task} : Turn S s (.announce t) (s.emit (.ofEnded t)) (some .evict)
  | evicts {r : TaskRegistry} (keeps : s.registry.Keeps r) :
      Turn S s .evict (s.withRegistry r) none

/-- There is nothing else that is done at the end of a task. -/
theorem Ending.turn {ending : Ending} {left : Option Ending}
    (h : ending.step S s = (s', left)) : Ending.Turn S s ending s' left := by
  cases ending with
  | settle id error =>
    simp only [step] at h
    generalize htransition : s.registry.transition id (if error.isSome then .failed else .completed)
      error S.now = result at h
    obtain ⟨r, moved⟩ := result
    rcases TaskRegistry.moves_transition htransition with ⟨rfl, hmoves⟩ | ⟨rfl, rfl⟩
    · cases h
      exact .settles hmoves
    · cases h
      refine .stays fun t ht => ?_
      obtain ⟨a, ha, hretained, rfl⟩ := TaskRegistry.get?_eq_some ht
      rcases TaskRegistry.transition_of_record? ha _ error S.now with
        ⟨u, _, _, heq⟩ | ⟨hno, _⟩
      · have hmoved := congrArg Prod.snd (htransition.symm.trans heq)
        cases hmoved
      · exact hno hretained
  | lookUp id =>
    simp only [step] at h
    split at h
    · cases h
      exact .finds ‹_›
    · cases h
      exact .misses ‹_›
  | announce t =>
    cases h
    exact .announces
  | evict =>
    cases h
    exact .evicts (TaskRegistry.keeps_evict _)

/-- The end of a task takes nothing back: a record moves only if it may, which an ended one may not.
-/
theorem Ending.Turn.advances {ending : Ending} {left : Option Ending}
    (h : Ending.Turn S s ending s' left) : s.Advances s' := by
  cases h with
  | settles moves => exact .of_moves moves rfl rfl
  | stays | finds | misses => exact .refl s
  | announces => exact .of_keeps (.refl _) rfl rfl
  | evicts keeps => exact .of_keeps keeps rfl rfl

/-- What a turn at the end of a task never touches. -/
theorem Ending.Turn.frame {ending : Ending} {left : Option Ending}
    (h : Ending.Turn S s ending s' left) :
    s'.queue = s.queue ∧ s'.permits = s.permits ∧ s'.issued = s.issued ∧
      s'.shuttingDown = s.shuttingDown ∧ s'.queueClosed = s.queueClosed ∧
      s'.stopSignal = s.stopSignal := by
  cases h <;> exact ⟨rfl, rfl, rfl, rfl, rfl, rfl⟩

/-! ### Calls -/

/-- Nothing about the tasks depends on the call at this point. -/
def Call.isPlain : Call → Bool
  | insert .. | send _ | refuse _ | failPending .. | announceCancelled .. | signalStop => false
  | _ => true

/-- What a call does. -/
inductive Call.Turn (S : Setting σ) (s : Shared σ) : Call → Shared σ → Call → Prop
  /-- The call reads something, or is done. -/
  | reads {call call' : Call} (before : call.isPlain = true) (after : call'.isPlain = true) :
      Turn S s call s call'
  | counts {source : String} {branch retryOf : Option String}
      (below : s.registry.count .pending < S.limits.maxQueueDepth) :
      Turn S s (.count source branch retryOf) s (.insert source branch retryOf)
  | inserts {source : String} {branch retryOf : Option String} :
      Turn S s (.insert source branch retryOf)
        { s with
          registry := s.registry.insert (.submitted (idOf s.issued) source branch retryOf S.now)
          issued := s.issued + 1 }
        (.send ⟨idOf s.issued, source, branch⟩)
  | sends {job : Job} (isOpen : s.queueClosed = false) :
      Turn S s (.send job) { s with queue := s.queue ++ [job] } (.done (.id job.id))
  | returns {job : Job} (closed : s.queueClosed = true) :
      Turn S s (.send job) s (.refuse (.settle job.id (some shutDown)))
  | refuses {ending : Ending} {left : Option Ending} {s' : Shared σ} {call' : Call}
      (turn : Ending.Turn S s ending s' left)
      (next : call' = left.elim (.fail (.taskState .shuttingDown)) .refuse) :
      Turn S s (.refuse ending) s' call'
  | cancels {id : String} {r : TaskRegistry} {seen : Task}
      (accepted : s.registry.requestCancel id = .ok (r, seen)) :
      Turn S s (.requestCancel id) (s.withRegistry r) (.failPending id seen)
  | fails {id : String} {r : TaskRegistry} {seen : Task}
      (moves : s.registry.Moves r id .failed (some cancelled)) :
      Turn S s (.failPending id seen) (s.withRegistry r) (.announceCancelled (.lookUp id) id seen)
  /-- The task is not pending any more. -/
  | leaves {id : String} {seen : Task} : Turn S s (.failPending id seen) s (.reread id seen)
  | announces {ending : Ending} {left : Option Ending} {id : String} {seen : Task} {s' : Shared σ}
      {call' : Call} (turn : Ending.Turn S s ending s' left)
      (next : call' = left.elim (.reread id seen) (.announceCancelled · id seen)) :
      Turn S s (.announceCancelled ending id seen) s' call'
  | forgets {id : String} {r : TaskRegistry} {t : Task} (keeps : s.registry.Keeps r) :
      Turn S s (.forget id) (s.withRegistry r) (.done (.task t))
  | refusesFurther : Turn S s .refuseFurther { s with shuttingDown := true } .signalStop
  | signals : Turn S s .signalStop { s with stopSignal := true } .takeDispatcher
  | takes : Turn S s .takeDispatcher { s with dispatcherTaken := true } .awaitDispatcher

/-- There is nothing else that a call does. -/
theorem Call.turn {call call' : Call} {dispatcher : Dispatcher}
    (h : call.step? S dispatcher s = some (s', call')) : Call.Turn S s call s' call' := by
  cases call with
  | readFailed id | check source branch retryOf | reread id seen | follow id | awaitEnd id
  | awaitDispatcher | done reply =>
    simp only [step?] at h
    repeat' split at h
    all_goals
      cases h
      try exact .reads rfl rfl
  | count source branch retryOf =>
    simp only [step?] at h
    split at h
    · cases h
      exact .reads rfl rfl
    · cases h
      exact .counts (Nat.lt_of_not_le ‹_›)
  | insert source branch retryOf =>
    cases h
    exact .inserts
  | send job =>
    simp only [step?] at h
    split at h
    · cases h
      exact .returns ‹_›
    · cases h
      exact .sends (Bool.not_eq_true _ ▸ ‹_›)
  | refuse ending =>
    simp only [step?] at h
    split at h
    all_goals
      cases h
      exact .refuses (Ending.turn ‹_›) rfl
  | requestCancel id =>
    simp only [step?] at h
    split at h
    · cases h
      exact .cancels ‹_›
    · cases h
      exact .reads rfl rfl
  | failPending id seen =>
    simp only [step?] at h
    generalize hfail : s.registry.failPending id cancelled S.now = result at h
    obtain ⟨r, moved⟩ := result
    rcases TaskRegistry.moves_failPending hfail with ⟨rfl, hmoves⟩ | ⟨rfl, rfl⟩
    · cases h
      exact .fails hmoves
    · cases h
      exact .leaves
  | announceCancelled ending id seen =>
    simp only [step?] at h
    split at h
    all_goals
      cases h
      exact .announces (Ending.turn ‹_›) rfl
  | forget id =>
    simp only [step?] at h
    split at h
    · cases h
      exact .forgets (TaskRegistry.keeps_remove ‹_›)
    · cases h
      exact .reads rfl rfl
  | refuseFurther =>
    cases h
    exact .refusesFurther
  | signalStop =>
    cases h
    exact .signals
  | takeDispatcher =>
    simp only [step?] at h
    split at h
    · cases h
      exact .reads rfl rfl
    · cases h
      exact .takes

/-- A call takes nothing back. What it inserts has a new id, so it stands in no other task's place.
-/
theorem Call.Turn.advances {call call' : Call} (h : Call.Turn S s call s' call')
    (hnew : idOf s.issued ∉ s.registry.ids) : s.Advances s' := by
  cases h with
  | reads | counts | returns | leaves => exact .refl s
  | @inserts source branch retryOf =>
    refine ⟨fun h => h, fun h => h, fun j hj => ?_, fun j t ht _ => ?_⟩
    · show (s.registry.insert _).isCancelled j = true
      rw [TaskRegistry.isCancelled_insert hnew]
      exact hj
    · show (s.registry.insert _).lastSeen? j = some t
      rw [TaskRegistry.lastSeen?_insert, if_neg, ht]
      -- A task that was seen has an id that was given out.
      rintro rfl
      cases (TaskRegistry.lastSeen?_eq_none hnew).symm.trans ht
  | sends | signals | takes => exact .of_keeps (.refl _) rfl rfl
  | refuses turn | announces turn => exact turn.advances
  | cancels accepted => exact .of_keeps (TaskRegistry.keeps_requestCancel accepted) rfl rfl
  | fails moves => exact .of_moves moves rfl rfl
  | forgets keeps => exact .of_keeps keeps rfl rfl
  | refusesFurther => exact ⟨fun _ => rfl, fun h => h, fun _ h => h, fun _ _ h _ => h⟩

/-! ### The dispatcher -/

/-- What the dispatcher does at the end of a task. -/
def Dispatcher.ending? : Dispatcher → Option Ending
  | finish ending _ | finishDrained ending => some ending
  | _ => none

/-- The dispatcher only changes records when it ends a task, which it never does without an
error. -/
theorem Dispatcher.Turn.ending_cases {dispatcher dispatcher' : Dispatcher}
    {runners started : List Runner}
    (turn : Dispatcher.Turn S runners s dispatcher s' dispatcher' started) :
    (∃ ending, dispatcher.ending? = some ending ∧ Ending.Turn S s ending s' dispatcher'.ending?) ∨
    s'.registry = s.registry ∧ s'.desk = s.desk ∧ s'.shuttingDown = s.shuttingDown ∧
      (s.queueClosed = true → s'.queueClosed = true) ∧ dispatcher.ending? = none ∧
      ∀ ending, dispatcher'.ending? = some ending → ∃ id error, ending = .settle id (some error) := by
  cases turn with
  | @finishes ending left stopping _ done =>
    refine Or.inl ⟨ending, rfl, ?_⟩
    have hturn := Ending.turn done
    cases left with
    | none => cases stopping <;> exact hturn
    | some ending' => exact hturn
  | @finishesDrained ending left _ done =>
    refine Or.inl ⟨ending, rfl, ?_⟩
    have hturn := Ending.turn done
    cases left <;> exact hturn
  | closes =>
    refine Or.inr ⟨rfl, rfl, rfl, fun _ => rfl, rfl, fun _ hending => ?_⟩
    cases hending
  | dismisses | halts | givesBack | drains =>
    refine Or.inr ⟨rfl, rfl, rfl, fun h => h, rfl, fun _ hending => ?_⟩
    cases hending
    exact ⟨_, _, rfl⟩
  | stops | receives | proceeds | acquires | withdraws | confirms | withholds | admits | spawns
  | empties | ends =>
    refine Or.inr ⟨rfl, rfl, rfl, fun h => h, rfl, fun _ hending => ?_⟩
    cases hending

/-- The dispatcher takes nothing back. -/
theorem Dispatcher.Turn.advances {dispatcher dispatcher' : Dispatcher}
    {runners started : List Runner}
    (turn : Dispatcher.Turn S runners s dispatcher s' dispatcher' started) : s.Advances s' := by
  rcases turn.ending_cases with ⟨_, _, turn⟩ | ⟨hregistry, _, hshutting, hclosed, _⟩
  · exact turn.advances
  · refine ⟨?_, hclosed, ?_, ?_⟩
    · rw [hshutting]
      exact fun h => h
    · rw [hregistry]
      exact fun _ h => h
    · rw [hregistry]
      exact fun _ _ h _ => h

/-! ### Runners -/

/-- What a runner does. -/
inductive Runner.Turn (S : Setting σ) (s : Shared σ) (r : Runner) : Shared σ → Runner → Prop
  | begins {registry : TaskRegistry} (stage : r.stage = .start)
      (moves : s.registry.Moves registry r.job.id .processing none) :
      Turn S s r (s.withRegistry registry) { r with stage := .enumerate }
  /-- The task was ended before it began. -/
  | declines (stage : r.stage = .start) : Turn S s r s { r with stage := .giveBack }
  | works {r' : Runner} (job : r'.job = r.job) (before : r.stage.isWorking = true)
      (after : r'.stage.isWorking = true) : Turn S s r s r'
  /-- The runner counts in its record, but leaves alone the status and what was asked for. -/
  | updates {f : Task → Task} {r' : Runner} (job : r'.job = r.job)
      (before : r.stage.isWorking = true) (after : r'.stage.isWorking = true)
      (same : ∀ t, (f t).id = t.id ∧ (f t).status = t.status ∧ (f t).source = t.source ∧
        (f t).branch = t.branch) :
      Turn S s r (s.updateTask r.job.id f) r'
  /-- Without an error the task was not cancelled when the runner checked at last. -/
  | concludes {error : Option String} (before : r.stage.isWorking = true)
      (checked : error = none → s.registry.isCancelled r.job.id = false) :
      Turn S s r s { r with stage := .finish (.settle r.job.id error) }
  | finishes {ending : Ending} {left : Option Ending} {s' : Shared σ} {r' : Runner}
      (stage : r.stage = .finish ending) (turn : Ending.Turn S s ending s' left)
      (next : r' = { r with stage := left.elim .giveBack .finish }) : Turn S s r s' r'
  | givesBack (stage : r.stage = .giveBack) :
      Turn S s r { s with permits := s.permits + 1 } { r with stage := .ended }

namespace Runner

/-- Whether a runner works is told by its stage. -/
theorem isWorking_of_stage {r : Runner} {stage : Stage} (hstage : r.stage = stage)
    (h : stage.isWorking = true) : r.stage.isWorking = true := by
  rw [hstage]
  exact h

section Stages

variable {r r' : Runner} (h : r.step? S s = some (s', r'))
include h

theorem turn_start (hstage : r.stage = .start) : Turn S s r s' r' := by
  simp only [step?, hstage] at h
  generalize htransition : s.registry.transition r.job.id .processing none S.now = result at h
  obtain ⟨registry, moved⟩ := result
  rcases TaskRegistry.moves_transition htransition with ⟨rfl, hmoves⟩ | ⟨rfl, rfl⟩
  · cases h
    exact .begins hstage hmoves
  · cases h
    exact .declines hstage

theorem turn_enumerate (hstage : r.stage = .enumerate) : Turn S s r s' r' := by
  have hworking := isWorking_of_stage hstage rfl
  simp only [step?, hstage] at h
  split at h
  · cases h
  · split at h
    · cases h
      exact .works rfl hworking rfl
    · cases h
      exact .concludes hworking fun herror => absurd herror (Option.some_ne_none _)

theorem turn_nextBatch {later : List (List Source.File)} (hstage : r.stage = .nextBatch later) :
    Turn S s r s' r' := by
  have hworking := isWorking_of_stage hstage rfl
  cases later with
  | nil =>
    simp only [step?, hstage] at h
    cases h
    exact .works rfl hworking rfl
  | cons files later =>
    simp only [step?, hstage] at h
    split at h
    all_goals
      cases h
      exact .works rfl hworking rfl

theorem turn_feed {files : List Source.File} {sent : Nat} {later : List (List Source.File)}
    (hstage : r.stage = .feed files sent later) : Turn S s r s' r' := by
  have hworking := isWorking_of_stage hstage rfl
  cases files with
  | nil =>
    simp only [step?, hstage] at h
    cases h
    exact .works rfl hworking rfl
  | cons file files =>
    simp only [step?, hstage] at h
    split at h
    · cases h
      exact .works rfl hworking rfl
    · cases h

theorem turn_await {remaining : Nat} {later : List (List Source.File)}
    (hstage : r.stage = .await remaining later) : Turn S s r s' r' := by
  have hworking := isWorking_of_stage hstage rfl
  cases remaining with
  | zero =>
    simp only [step?, hstage] at h
    cases h
    exact .works rfl hworking rfl
  | succ remaining =>
    simp only [step?, hstage] at h
    split at h
    · cases h
    all_goals
      cases h
      exact .works rfl hworking rfl

theorem turn_awaitWorkers (hstage : r.stage = .awaitWorkers) : Turn S s r s' r' := by
  have hworking := isWorking_of_stage hstage rfl
  simp only [step?, hstage] at h
  split at h
  · cases h
    exact .works rfl hworking rfl
  · cases h

theorem turn_check (hstage : r.stage = .check) : Turn S s r s' r' := by
  have hworking := isWorking_of_stage hstage rfl
  simp only [step?, hstage] at h
  cases h
  refine .concludes hworking fun herror => ?_
  split at herror
  · cases herror
  · exact Bool.not_eq_true _ ▸ ‹_›

theorem turn_finish {ending : Ending} (hstage : r.stage = .finish ending) : Turn S s r s' r' := by
  simp only [step?, hstage] at h
  split at h
  all_goals
    cases h
    exact .finishes hstage (Ending.turn ‹_›) rfl

/-- There is nothing else that a runner does. -/
theorem turn : Turn S s r s' r' := by
  cases hstage : r.stage with
  | start => exact turn_start h hstage
  | enumerate => exact turn_enumerate h hstage
  | expect snapshot | noteFile path remaining later =>
    simp only [step?, hstage] at h
    cases h
    exact .updates rfl (isWorking_of_stage hstage rfl) rfl fun _ => ⟨rfl, rfl, rfl, rfl⟩
  | nextBatch later => exact turn_nextBatch h hstage
  | feed files sent later => exact turn_feed h hstage
  | await remaining later => exact turn_await h hstage
  | record outcome remaining later =>
    simp only [step?, hstage] at h
    cases h
    refine .updates rfl (isWorking_of_stage hstage rfl) rfl fun _ => ?_
    cases outcome <;> exact ⟨rfl, rfl, rfl, rfl⟩
  | closeFiles =>
    simp only [step?, hstage] at h
    cases h
    exact .works rfl (isWorking_of_stage hstage rfl) rfl
  | awaitWorkers => exact turn_awaitWorkers h hstage
  | check => exact turn_check h hstage
  | finish ending => exact turn_finish h hstage
  | giveBack =>
    simp only [step?, hstage] at h
    cases h
    exact .givesBack hstage
  | ended =>
    simp only [step?, hstage] at h
    cases h

end Stages

end Runner

theorem Runner.Turn.job {r r' : Runner} (h : Runner.Turn S s r s' r') : r'.job = r.job := by
  cases h with
  | works job | updates job => exact job
  | finishes _ _ next => rw [next]
  | begins | declines | concludes | givesBack => rfl

/-- A runner neither touches the queue nor shuts anything down. -/
theorem Runner.Turn.flags {r r' : Runner} (h : Runner.Turn S s r s' r') :
    s'.queue = s.queue ∧ s'.shuttingDown = s.shuttingDown ∧
      s'.queueClosed = s.queueClosed ∧ s'.stopSignal = s.stopSignal := by
  cases h with
  | finishes _ turn =>
    obtain ⟨hqueue, _, _, hshutting, hclosed, hstop⟩ := turn.frame
    exact ⟨hqueue, hshutting, hclosed, hstop⟩
  | begins | declines | works | updates | concludes | givesBack => exact ⟨rfl, rfl, rfl, rfl⟩

/-- A runner leaves all tasks but its own alone. -/
theorem Runner.Turn.others {r r' : Runner} (h : Runner.Turn S s r s' r')
    (hstands : ∃ a, s.registry.record? r.job.id = some a ∧ r.Stands a) {j : String}
    (hj : j ≠ r.job.id) : s'.registry.lastSeen? j = s.registry.lastSeen? j := by
  cases h with
  | begins _ moves => exact moves.others j hj
  | declines | works | concludes | givesBack => rfl
  | updates _ _ _ same =>
    exact TaskRegistry.lastSeen?_update_of_ne (fun t ht => (same t).1.trans ht) hj
  | finishes stage turn =>
    cases turn with
    | settles moves =>
      obtain ⟨a, _, hplaced⟩ := hstands
      rw [(hplaced.of_settle stage).2] at moves
      exact moves.others j hj
    | stays | finds | misses | announces => rfl
    | evicts keeps => exact keeps.lastSeen? j

/-- While a runner works, it leaves the status of its task alone. -/
theorem Runner.Turn.advances {r r' : Runner} {a : TaskRecord} (h : Runner.Turn S s r s' r')
    (ha : s.registry.record? r.job.id = some a) (hstands : r.Stands a) : s.Advances s' := by
  cases h with
  | begins _ moves => exact .of_moves moves rfl rfl
  | declines | works | concludes => exact .refl s
  | givesBack => exact .of_keeps (.refl _) rfl rfl
  | finishes _ turn => exact turn.advances
  | @updates f _ _ before _ same =>
    have hf : ∀ t : Task, t.id = r.job.id → (f t).id = r.job.id := fun t ht => (same t).1.trans ht
    refine ⟨fun h => h, fun h => h, fun j hj => ?_, fun j t ht hended => ?_⟩
    · exact (TaskRegistry.isCancelled_update hf j).trans hj
    · have hj : j ≠ r.job.id := by
        rintro rfl
        have hrunning := (hstands.isRunning before).1
        obtain rfl : a.task = t :=
          Option.some.inj ((TaskRegistry.lastSeen?_of_record? ha).symm.trans ht)
        rw [hrunning] at hended
        cases hended
      exact (TaskRegistry.lastSeen?_update_of_ne hf hj).trans ht

/-! ### Workers -/

/-- A worker changes nothing that is shared but the desk on which it processes a file. -/
theorem Worker.step?_shared {r r' : Runner} {w w' : Worker}
    (h : w.step? S s r = some (s', r', w')) :
    (∃ desk, s' = { s with desk := desk } ∧ (desk = s.desk ∨ ∃ file,
      desk = (Ingest.process S.processor r.context file w.parsers s.desk).2.2)) ∧
      r'.job = r.job ∧ r'.stage = r.stage := by
  obtain ⟨stage, parsers⟩ := w
  cases stage with
  | idle =>
    simp only [step?] at h
    split at h
    · cases h
      exact ⟨⟨_, rfl, Or.inl rfl⟩, rfl, rfl⟩
    · split at h <;> cases h
      exact ⟨⟨_, rfl, Or.inl rfl⟩, rfl, rfl⟩
  | check file | begin file | report outcome =>
    cases h
    exact ⟨⟨_, rfl, Or.inl rfl⟩, rfl, rfl⟩
  | process file =>
    simp only [step?, Option.some.injEq, Prod.mk.injEq] at h
    obtain ⟨rfl, rfl, _⟩ := h
    exact ⟨⟨_, rfl, Or.inr ⟨file, rfl⟩⟩, rfl, rfl⟩
  | ended => cases h

/-! ### Acts -/

/-- What an act can be, and the state it leads to. -/
inductive State.Turn (S : Setting σ) (s : State σ) : Act → State σ → Prop
  /-- The part has to wait. -/
  | rests {m : Move} (stuck : s.step? S m = none) : Turn S s (.move m) s
  | requests (r : Request) : Turn S s (.request r) (s.request r)
  | letsGo (source : String) : Turn S s (.letGo source) (s.letGo source)
  | call {i : Nat} {call call' : Call} {shared : Shared σ} (made : s.calls[i]? = some call)
      (turn : Call.Turn S s.shared call shared call') :
      Turn S s (.move (.call i)) { s with shared := shared, calls := s.calls.set i call' }
  | dispatcher {shared : Shared σ} {dispatcher : Dispatcher} {started : List Runner}
      (turn : Dispatcher.Turn S s.runners s.shared s.dispatcher shared dispatcher started) :
      Turn S s (.move .dispatcher)
        { s with shared := shared, dispatcher := dispatcher, runners := s.runners ++ started }
  | runner {i : Nat} {r r' : Runner} {shared : Shared σ} (started : s.runners[i]? = some r)
      (turn : Runner.Turn S s.shared r shared r') :
      Turn S s (.move (.runner i)) { s with shared := shared, runners := s.runners.set i r' }
  | worker {i k : Nat} {r r' : Runner} {desk : Ingest.Desk σ} (started : s.runners[i]? = some r)
      (processed : desk = s.shared.desk ∨ ∃ file parsers,
        desk = (Ingest.process S.processor r.context file parsers s.shared.desk).2.2)
      (job : r'.job = r.job) (stage : r'.stage = r.stage) :
      Turn S s (.move (.worker i k))
        { s with shared := { s.shared with desk := desk }, runners := s.runners.set i r' }

/-- There is nothing else that an act does. -/
theorem State.turn (S : Setting σ) (s : State σ) (a : Act) : s.Turn S a (s.act S a) := by
  cases a with
  | request r => exact .requests r
  | letGo source => exact .letsGo source
  | move m =>
    rw [act]
    cases hstep : s.step? S m with
    | none => exact .rests hstep
    | some t =>
      rw [Option.getD_some]
      cases m with
      | call i =>
        obtain ⟨call, call', shared, hcall, hmove, rfl⟩ := step?_call hstep
        exact .call hcall (Call.turn hmove)
      | dispatcher =>
        obtain ⟨dispatcher, shared, started, turn, rfl⟩ := step?_dispatcher hstep
        exact .dispatcher turn
      | runner i =>
        obtain ⟨r, r', shared, hr, hmove, rfl⟩ := step?_runner hstep
        exact .runner hr (Runner.turn hmove)
      | worker i k =>
        obtain ⟨r, r', w, w', shared, hr, _, hmove, rfl⟩ := step?_worker hstep
        obtain ⟨⟨desk, rfl, hdesk⟩, hjob, hstage⟩ := Worker.step?_shared hmove
        have hprocessed : desk = s.shared.desk ∨ ∃ file parsers,
            desk = (Ingest.process S.processor r.context file parsers s.shared.desk).2.2 := by
          rcases hdesk with hsame | ⟨file, hdesk⟩
          · exact Or.inl hsame
          · exact Or.inr ⟨file, w.parsers, hdesk⟩
        exact .worker hr hprocessed hjob hstage

/-- Whatever happens, the scheduler only moves forward. -/
theorem State.IsSound.advances {s : State σ} (h : s.IsSound S) (a : Act) :
    s.shared.Advances (s.act S a).shared := by
  have hturn := s.turn S a
  generalize s.act S a = t at hturn ⊢
  cases hturn with
  | rests | requests => exact .refl _
  | letsGo | worker => exact .of_keeps (.refl _) rfl rfl
  | call _ turn => exact turn.advances h.idOf_not_mem
  | dispatcher turn => exact turn.advances
  | runner started turn =>
    obtain ⟨a, ha, hstands⟩ := h.stands (List.mem_of_getElem? started)
    exact turn.advances ha hstands

end CodeIndex.Scheduler
