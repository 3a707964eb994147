import CodeIndex.Proofs.Scheduler.Dispatch
import CodeIndex.Proofs.Task.Records
import Mathlib.Algebra.BigOperators.Group.List.Basic
import Mathlib.Algebra.Order.Group.Multiset
import Mathlib.Tactic.Abel
/-!
# Where the jobs are

A job that was submitted is in one place at a time: with the call that sends it, in the queue, with
the dispatcher or with its runner, and whoever ends a task has its job until then.
`State.jobs` counts all of these places. No move puts a job into two of them, and only an insertion
adds one, whose id is new (`Shared.Serves`). So nobody but its runner ever touches a task that runs.
-/

namespace CodeIndex.Scheduler

variable {σ : Type} {S : Setting σ}

/-! ### Ids -/

theorem natText_injective : Function.Injective Number.natText := by
  intro m n h
  have hdigits : Nat.toDigits 10 m = Nat.toDigits 10 n := String.ofList_inj.mp h
  have hvalue := congrArg (Nat.ofDigitChars 10 · 0) hdigits
  simpa only [Nat.ofDigitChars_ten_toDigits] using hvalue

theorem idOf_injective : Function.Injective idOf := by
  intro m n h
  exact natText_injective ((String.append_right_inj "T").mp h)

/-- The ids that were given out. -/
def issuedIds (n : Nat) : List String :=
  (List.range n).map idOf

theorem issuedIds_succ (n : Nat) : issuedIds (n + 1) = issuedIds n ++ [idOf n] := by
  rw [issuedIds, List.range_succ, List.map_append]
  rfl

theorem idOf_not_mem_issuedIds (n : Nat) : idOf n ∉ issuedIds n := by
  intro h
  obtain ⟨m, hm, heq⟩ := List.mem_map.mp h
  exact Nat.ne_of_lt (List.mem_range.mp hm) (idOf_injective heq)

theorem nodup_issuedIds (n : Nat) : (issuedIds n).Nodup :=
  List.nodup_range.map idOf_injective

theorem issuedIds_subset {m n : Nat} (h : m ≤ n) : issuedIds m ⊆ issuedIds n :=
  List.map_subset idOf (List.range_subset.mpr h)

/-! ### Places -/

/-- A sum over parts is that of one part and the rest, whatever the one part is replaced by. -/
theorem exists_sum_rest {α M : Type} [AddCommMonoid M] (f : α → M) {xs : List α} {k : Nat} {x : α}
    (h : xs[k]? = some x) :
    ∃ rest, (xs.map f).sum = f x + rest ∧ ∀ y, ((xs.set k y).map f).sum = f y + rest := by
  induction xs generalizing k with
  | nil => cases h
  | cons z zs ih =>
    cases k with
    | zero =>
      obtain rfl : z = x := Option.some.inj h
      exact ⟨(zs.map f).sum, List.sum_cons, fun _ => List.sum_cons⟩
    | succ k =>
      obtain ⟨rest, hsum, hset⟩ := ih h
      refine ⟨f z + rest, ?_, fun y => ?_⟩
      · rw [List.map_cons, List.sum_cons, hsum, add_left_comm]
      · rw [List.set_cons_succ, List.map_cons, List.sum_cons, hset, add_left_comm]

/-- A sum over parts of which one is replaced. -/
theorem sum_map_set {α M : Type} [AddCommMonoid M] (f : α → M) {xs : List α} {k : Nat} {x : α}
    (y : α) (h : xs[k]? = some x) :
    ((xs.set k y).map f).sum + f x = (xs.map f).sum + f y := by
  obtain ⟨rest, hsum, hset⟩ := exists_sum_rest f h
  rw [hsum, hset]
  abel

/-- The job of a task that is to be moved to its last status. -/
def Ending.jobs : Ending → Multiset String
  | settle id _ => {id}
  | _ => 0

def Call.jobs : Call → Multiset String
  | send job => {job.id}
  | refuse ending | announceCancelled ending _ _ => ending.jobs
  | _ => 0

def Dispatcher.jobs : Dispatcher → Multiset String
  | received job | acquire job | granted job | admitted job | spawn job | giveBack job _ => {job.id}
  | finish ending _ | finishDrained ending => ending.jobs
  | _ => 0

/-- The jobs in the queue. -/
def Shared.jobs (s : Shared σ) : Multiset String :=
  (s.queue.map Job.id : List String)

/-- The jobs of the runners, those that have ended included. -/
def runnerJobs (runners : List Runner) : Multiset String :=
  (runners.map (·.job.id) : List String)

/-- Every place with a job. -/
def State.jobs (s : State σ) : Multiset String :=
  s.shared.jobs + s.dispatcher.jobs + (s.calls.map Call.jobs).sum + runnerJobs s.runners

theorem mem_runnerJobs {runners : List Runner} {r : Runner} (hr : r ∈ runners) :
    r.job.id ∈ runnerJobs runners :=
  List.mem_map_of_mem (f := fun r : Runner => r.job.id) hr

theorem runnerJobs_append (xs ys : List Runner) :
    runnerJobs (xs ++ ys) = runnerJobs xs + runnerJobs ys := by
  rw [runnerJobs, List.map_append, ← Multiset.coe_add]
  rfl

/-- A runner keeps its job. -/
theorem map_job_set {runners : List Runner} {i : Nat} {r r' : Runner}
    (hr : runners[i]? = some r) (hjob : r'.job = r.job) :
    (runners.set i r').map (·.job.id) = runners.map (·.job.id) := by
  obtain ⟨hi, rfl⟩ := List.getElem?_eq_some_iff.mp hr
  have hmap : i < (runners.map (·.job.id)).length := by rwa [List.length_map]
  have hself := List.set_getElem_self hmap
  rw [List.getElem_map] at hself
  rw [List.map_set, hjob, hself]

theorem runnerJobs_set {runners : List Runner} {i : Nat} {r r' : Runner}
    (hr : runners[i]? = some r) (hjob : r'.job = r.job) :
    runnerJobs (runners.set i r') = runnerJobs runners :=
  congrArg Multiset.ofList (map_job_set hr hjob)

theorem runnerJobs_le (s : State σ) : runnerJobs s.runners ≤ s.jobs :=
  Multiset.le_add_left _ _

theorem jobs_start (limits : Config.Pipeline) (store : σ) (held : List String) :
    (State.start limits store held).jobs = 0 := by
  simp [State.jobs, State.start, Shared.jobs, Dispatcher.jobs, runnerJobs]

/-! ### What others than runners do -/

/-- What a call or the dispatcher makes of what is shared while its own jobs change. -/
inductive Shared.Serves (s s' : Shared σ) (before after : Multiset String) : Prop where
  /-- No job comes up, and all records are handled. -/
  | handles (issued : s'.issued = s.issued)
      (records : s.registry.IsHandled none s'.registry)
      (jobs : s'.jobs + after ≤ s.jobs + before)
  /-- A new task and its job come up. -/
  | inserts (source : String) (branch retryOf : Option String) (now : Time.Timestamp)
      (issued : s'.issued = s.issued + 1)
      (records : s'.registry
        = s.registry.insert (.submitted (idOf s.issued) source branch retryOf now))
      (jobs : s'.jobs + after ≤ s.jobs + before + {idOf s.issued})

/-- The tasks with these jobs do not run. -/
def Shared.IsIdle (s : Shared σ) (jobs : Multiset String) : Prop :=
  ∀ j ∈ jobs, ∀ a, s.registry.record? j = some a → a.task.status ≠ .processing

variable {s s' : Shared σ} {before after : Multiset String}

namespace Shared.Serves

/-- Jobs may be given up. -/
theorem of_same (h : after ≤ before) : s.Serves s before after :=
  .handles rfl (.refl _) (Multiset.add_le_add_left h)

theorem of_registry {r : TaskRegistry} (hr : s.registry.IsHandled none r) (h : after ≤ before) :
    s.Serves (s.withRegistry r) before after :=
  .handles rfl hr (Multiset.add_le_add_left h)

/-- Ids are only given out. -/
theorem issued_le (h : s.Serves s' before after) : s.issued ≤ s'.issued := by
  cases h with
  | handles issued records jobs => exact issued.ge
  | inserts source branch retryOf now issued records jobs =>
    rw [issued]
    exact Nat.le_succ _

end Shared.Serves

/-- Once a task has its last status, its job is given up. -/
theorem Ending.jobs_of_step {ending ending' : Ending}
    (h : ending.step S s = (s', some ending')) : ending'.jobs = 0 := by
  cases ending with
  | settle id error =>
    simp only [step, Prod.mk.injEq] at h
    split at h
    all_goals
      obtain ⟨_, h⟩ := h
      split at h <;> cases h
      rfl
  | lookUp id =>
    simp only [step] at h
    split at h <;> cases h <;> rfl
  | announce task => cases h; rfl
  | evict => cases h

theorem Ending.serves (ending : Ending) (h : s.IsIdle ending.jobs) :
    s.Serves (ending.step S s).1 ending.jobs 0 := by
  cases ending with
  | settle id error =>
    refine .of_registry (TaskRegistry.isHandled_transition ?_ ?_) (Multiset.zero_le _)
    · split <;> rfl
    · exact h id (Multiset.mem_singleton_self id)
  | lookUp id =>
    rw [step]
    cases s.registry.get? id <;> exact .of_same (Multiset.zero_le _)
  | announce task => exact .handles rfl (.refl _) (Multiset.add_le_add_left (Multiset.zero_le _))
  | evict => exact .of_registry (TaskRegistry.isHandled_evict _) (Multiset.zero_le _)

/-- What an ending serves, its owner serves with what is left of it. -/
theorem Ending.serves_of_step {ending : Ending} {left : Option Ending}
    (hidle : s.IsIdle ending.jobs) (h : ending.step S s = (s', left)) :
    s.Serves s' ending.jobs 0 ∧ ∀ ending', left = some ending' → ending'.jobs = 0 := by
  have hserves := ending.serves (S := S) hidle
  rw [h] at hserves
  exact ⟨hserves, fun ending' hleft => jobs_of_step (h.trans (congrArg _ hleft))⟩

section Left

variable {left : Option Ending} (hleft : ∀ ending, left = some ending → ending.jobs = 0)
include hleft

/-- A call whose job was given up has none, whether it goes on with the end of the task or not. -/
theorem Call.jobs_refuse (fault : Fault) : (left.elim (Call.fail fault) Call.refuse).jobs = 0 := by
  cases left with
  | none => rfl
  | some ending => exact hleft ending rfl

theorem Call.jobs_announceCancelled (id : String) (seen : Task) :
    (left.elim (Call.reread id seen) (Call.announceCancelled · id seen)).jobs = 0 := by
  cases left with
  | none => rfl
  | some ending => exact hleft ending rfl

/-- Nor has the dispatcher, which goes on with the end of the task or to its next job. -/
theorem Dispatcher.jobs_finish (stopping : Bool) :
    (left.elim (if stopping then Dispatcher.close else .select) (.finish · stopping)).jobs = 0 := by
  cases left with
  | none => cases stopping <;> rfl
  | some ending => exact hleft ending rfl

theorem Dispatcher.jobs_finishDrained :
    (left.elim Dispatcher.drain .finishDrained).jobs = 0 := by
  cases left with
  | none => rfl
  | some ending => exact hleft ending rfl

end Left

theorem Shared.jobs_push (job : Job) :
    Shared.jobs { s with queue := s.queue ++ [job] } = s.jobs + {job.id} := by
  rw [jobs, jobs, List.map_append, ← Multiset.coe_add]
  rfl

theorem Shared.jobs_pop {job : Job} {queue : List Job} (h : s.queue = job :: queue) :
    Shared.jobs { s with queue := queue } + {job.id} = s.jobs := by
  rw [jobs, jobs, h, List.map_cons, ← Multiset.cons_coe, ← Multiset.singleton_add, add_comm]

/-- A call has a job from its insertion until it is in the queue or at its end. -/
theorem Call.serves {call call' : Call} {dispatcher : Dispatcher} (hidle : s.IsIdle call.jobs)
    (h : call.step? S dispatcher s = some (s', call')) : s.Serves s' call.jobs call'.jobs := by
  cases call with
  | readFailed id | check source branch retryOf | count source branch retryOf | reread id seen
  | follow id | awaitEnd id | awaitDispatcher | done reply =>
    simp only [step?] at h
    repeat' split at h
    all_goals
      cases h
      try exact .of_same (Multiset.zero_le _)
  | insert source branch retryOf =>
    cases h
    refine .inserts source branch retryOf S.now rfl rfl ?_
    exact Multiset.add_le_add_right (Multiset.le_add_right _ _)
  | send job =>
    simp only [step?] at h
    split at h
    · cases h
      exact .of_same (le_refl _)
    · cases h
      refine .handles rfl (.refl _) ?_
      rw [Shared.jobs_push]
      exact le_of_eq (add_zero _)
  | refuse ending | announceCancelled ending id seen =>
    simp only [step?] at h
    split at h
    all_goals
      obtain ⟨hserves, hleft⟩ := Ending.serves_of_step hidle ‹_›
      cases h
    · rw [jobs, jobs, hleft _ rfl]
      exact hserves
    · exact hserves
  | requestCancel id =>
    simp only [step?] at h
    split at h
    · cases h
      exact .of_registry (TaskRegistry.isHandled_requestCancel ‹_›) (Multiset.zero_le _)
    · cases h
      exact .of_same (Multiset.zero_le _)
  | failPending id seen =>
    cases h
    refine .of_registry (TaskRegistry.isHandled_failPending _ _) ?_
    split <;> exact Multiset.zero_le _
  | forget id =>
    simp only [step?] at h
    split at h
    · cases h
      exact .of_registry (TaskRegistry.isHandled_remove ‹_›) (Multiset.zero_le _)
    · cases h
      exact .of_same (Multiset.zero_le _)
  | refuseFurther | signalStop =>
    cases h
    exact .handles rfl (.refl _) (Multiset.add_le_add_left (Multiset.zero_le _))
  | takeDispatcher =>
    simp only [step?] at h
    split at h
    · cases h
      exact .of_same (Multiset.zero_le _)
    · cases h
      exact .handles rfl (.refl _) (Multiset.add_le_add_left (Multiset.zero_le _))

/-- The dispatcher takes a job from the queue, and hands it to a runner or has it at its end. -/
theorem Dispatcher.Turn.serves {dispatcher dispatcher' : Dispatcher}
    {runners started : List Runner}
    (turn : Dispatcher.Turn S runners s dispatcher s' dispatcher' started)
    (hidle : s.IsIdle dispatcher.jobs) :
    s.Serves s' dispatcher.jobs (dispatcher'.jobs + runnerJobs started) := by
  cases turn with
  | receives next | drains next =>
    refine .handles rfl (.refl _) (le_of_eq ?_)
    exact (Shared.jobs_pop next).trans (add_zero _).symm
  | stops | halts | acquires | spawns | givesBack | closes =>
    exact .handles rfl (.refl _) (le_refl _)
  | dismisses | proceeds | withdraws | confirms | withholds | admits | empties | ends =>
    exact .of_same (le_refl _)
  | finishes done =>
    obtain ⟨hserves, hleft⟩ := Ending.serves_of_step hidle done
    rw [jobs_finish hleft]
    exact hserves
  | finishesDrained done =>
    obtain ⟨hserves, hleft⟩ := Ending.serves_of_step hidle done
    rw [jobs_finishDrained hleft]
    exact hserves

/-! ### Moves -/

namespace State

variable {s t : State σ}

/-- A call takes its turn. -/
theorem step?_call {i : Nat} (h : s.step? S (.call i) = some t) :
    ∃ call call' shared, s.calls[i]? = some call ∧
      call.step? S s.dispatcher s.shared = some (shared, call') ∧
      t = { s with shared := shared, calls := s.calls.set i call' } := by
  simp only [step?, Option.bind_eq_bind, Option.bind_eq_some_iff, Option.pure_def,
    Option.some.injEq] at h
  obtain ⟨call, hcall, ⟨shared, call'⟩, hstep, rfl⟩ := h
  exact ⟨call, call', shared, hcall, hstep, rfl⟩

/-- The dispatcher takes its turn. -/
theorem step?_dispatcher (h : s.step? S .dispatcher = some t) :
    ∃ dispatcher shared started,
      Dispatcher.Turn S s.runners s.shared s.dispatcher shared dispatcher started ∧
      t = { s with
        shared := shared, dispatcher := dispatcher, runners := s.runners ++ started } := by
  simp only [step?, Option.bind_eq_bind, Option.bind_eq_some_iff, Option.pure_def,
    Option.some.injEq] at h
  obtain ⟨⟨shared, dispatcher, started⟩, hstep, rfl⟩ := h
  exact ⟨dispatcher, shared, started, Dispatcher.turn hstep, rfl⟩

/-- A runner takes its turn. -/
theorem step?_runner {i : Nat} (h : s.step? S (.runner i) = some t) :
    ∃ r r' shared, s.runners[i]? = some r ∧ r.step? S s.shared = some (shared, r') ∧
      t = { s with shared := shared, runners := s.runners.set i r' } := by
  simp only [step?, Option.bind_eq_bind, Option.bind_eq_some_iff, Option.pure_def,
    Option.some.injEq] at h
  obtain ⟨r, hr, ⟨shared, r'⟩, hstep, rfl⟩ := h
  exact ⟨r, r', shared, hr, hstep, rfl⟩

/-- A worker takes its turn. -/
theorem step?_worker {i k : Nat} (h : s.step? S (.worker i k) = some t) :
    ∃ r r' w w' shared, s.runners[i]? = some r ∧ r.workers[k]? = some w ∧
      w.step? S s.shared r = some (shared, r', w') ∧
      t = { s with
        shared := shared
        runners := s.runners.set i { r' with workers := r'.workers.set k w' } } := by
  simp only [step?, Option.bind_eq_bind, Option.bind_eq_some_iff, Option.pure_def,
    Option.some.injEq] at h
  obtain ⟨r, hr, w, hw, ⟨shared, r', w'⟩, hstep, rfl⟩ := h
  exact ⟨r, r', w, w', shared, hr, hw, hstep, rfl⟩

end State

end CodeIndex.Scheduler
