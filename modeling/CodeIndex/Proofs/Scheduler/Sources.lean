import CodeIndex.Proofs.Scheduler.Moves
/-!
# What is asked for

A task asks for a source and a branch. On its way from the call that sends it through the queue and
the dispatcher to its runner, its job asks for the same, and so does its record, whatever becomes of
it (`State.isAsked_run`). So what a runner lists are the files of the source that the record of its
task names.
-/

namespace CodeIndex.TaskRegistry

variable {r r' : TaskRegistry} {id : String}

/-! ### Records -/

/-- Every task asks for the source and the branch that it asked for. -/
def KeepsSources (r r' : TaskRegistry) : Prop :=
  ∀ j t, r.lastSeen? j = some t →
    ∃ u, r'.lastSeen? j = some u ∧ u.source = t.source ∧ u.branch = t.branch

theorem KeepsSources.refl (r : TaskRegistry) : r.KeepsSources r :=
  fun _ t ht => ⟨t, ht, rfl, rfl⟩

/-- Who changes no task changes nothing that was asked for. -/
theorem Keeps.keepsSources (h : r.Keeps r') : r.KeepsSources r' :=
  fun j t ht => ⟨t, (h.lastSeen? j).trans ht, rfl, rfl⟩

/-- A record may be updated in anything but its id, its source and its branch. -/
theorem keepsSources_update {f : Task → Task} (hf : ∀ t, t.id = id → (f t).id = id)
    (h : ∀ t, r.lastSeen? id = some t → (f t).source = t.source ∧ (f t).branch = t.branch) :
    r.KeepsSources (r.update id f) := by
  intro j t ht
  by_cases hj : j = id
  · subst hj
    obtain ⟨a, ha, rfl⟩ := lastSeen?_eq_some ht
    cases hretained : a.retained with
    | true => exact ⟨f a.task, lastSeen?_update_self hf ha hretained, h a.task ht⟩
    | false =>
      -- A record that was let go is not updated any more.
      have hkey : ∀ b : TaskRecord, b.id = j → TaskRecord.id { b with task := f b.task } = j :=
        fun b => hf b.task
      refine ⟨a.task, lastSeen?_of_record? (a := a) ?_, rfl, rfl⟩
      rw [update, record?_modify hkey, ha, Option.map_some, hretained, Bool.and_false,
        if_neg Bool.false_ne_true]
  · exact ⟨t, (lastSeen?_update_of_ne hf hj).trans ht, rfl, rfl⟩

/-- A task with another status asks for what it asked for. -/
theorem Moves.keepsSources {next : TaskStatus} {error : Option String}
    (h : r.Moves r' id next error) : r.KeepsSources r' := by
  intro j t ht
  by_cases hj : j = id
  · subst hj
    obtain ⟨t', u, ht', _, hu, _, _, hsource⟩ := h.moved
    cases ht.symm.trans ht'
    exact ⟨u, hu, hsource⟩
  · exact ⟨t, (h.others j hj).trans ht, rfl, rfl⟩

/-- A task with a new id takes no other's place. -/
theorem keepsSources_insert {t : Task} (hnew : t.id ∉ r.ids) : r.KeepsSources (r.insert t) := by
  intro j u hu
  refine ⟨u, ?_, rfl, rfl⟩
  rw [lastSeen?_insert, if_neg, hu]
  rintro rfl
  cases (lastSeen?_eq_none hnew).symm.trans hu

end CodeIndex.TaskRegistry

namespace CodeIndex.Scheduler

variable {σ : Type} {S : Setting σ} {s s' : Shared σ}

/-! ### Turns -/

/-- At its end a task gets another status, and records are let go; all that was asked for stays. -/
theorem Ending.Turn.keepsSources {ending : Ending} {left : Option Ending}
    (turn : Ending.Turn S s ending s' left) : s.registry.KeepsSources s'.registry := by
  cases turn with
  | settles moves => exact moves.keepsSources
  | evicts keeps => exact keeps.keepsSources
  | stays | finds | misses | announces => exact .refl _

/-- A call that submits a task does so under a new id, so it changes no other task. -/
theorem Call.Turn.keepsSources {call call' : Call} (turn : Call.Turn S s call s' call')
    (hnew : idOf s.issued ∉ s.registry.ids) : s.registry.KeepsSources s'.registry := by
  cases turn with
  | inserts => exact TaskRegistry.keepsSources_insert hnew
  | refuses turn | announces turn => exact turn.keepsSources
  | cancels accepted => exact (TaskRegistry.keeps_requestCancel accepted).keepsSources
  | fails moves => exact moves.keepsSources
  | forgets keeps => exact keeps.keepsSources
  | reads | counts | sends | returns | leaves | refusesFurther | signals | takes => exact .refl _

/-- The dispatcher changes no record but at the end of a task. -/
theorem Dispatcher.Turn.keepsSources {dispatcher dispatcher' : Dispatcher}
    {runners started : List Runner}
    (turn : Dispatcher.Turn S runners s dispatcher s' dispatcher' started) :
    s.registry.KeepsSources s'.registry := by
  rcases turn.ending_cases with ⟨_, _, turn⟩ | ⟨hregistry, _⟩
  · exact turn.keepsSources
  · rw [hregistry]
    exact .refl _

/-- A runner counts in the record of its task and moves it to another status. -/
theorem Runner.Turn.keepsSources {r r' : Runner} (turn : Runner.Turn S s r s' r') :
    s.registry.KeepsSources s'.registry := by
  cases turn with
  | begins _ moves => exact moves.keepsSources
  | updates _ _ _ same =>
    exact TaskRegistry.keepsSources_update (fun t ht => (same t).1.trans ht) fun t _ =>
      (same t).2.2
  | finishes _ turn => exact turn.keepsSources
  | declines | works | concludes | givesBack => exact .refl _

/-! ### Jobs -/

/-- The record of a job asks for what the job asks for. -/
def Shared.Asks (s : Shared σ) (job : Job) : Prop :=
  ∃ t, s.registry.lastSeen? job.id = some t ∧ t.source = job.source ∧ t.branch = job.branch

/-- A job asks for what its record asks for as long as that stays. -/
theorem Shared.Asks.mono {job : Job} (h : s.Asks job)
    (hkeeps : s.registry.KeepsSources s'.registry) : s'.Asks job := by
  obtain ⟨t, ht, hsource, hbranch⟩ := h
  obtain ⟨u, hu, hsource', hbranch'⟩ := hkeeps job.id t ht
  exact ⟨u, hu, hsource'.trans hsource, hbranch'.trans hbranch⟩

/-- The job that a call is about to send. -/
def Call.job? : Call → Option Job
  | send job => some job
  | _ => none

/-- The job that the dispatcher may still start. -/
def Dispatcher.job? : Dispatcher → Option Job
  | received job | acquire job | granted job | admitted job | spawn job | giveBack job _ => some job
  | _ => none

theorem Call.job?_of_isPlain {call : Call} (h : call.isPlain = true) : call.job? = none := by
  cases call <;> first | rfl | cases h

/-- A call has a new job after its insertion, and puts into the queue what it had. -/
theorem Call.Turn.jobs {call call' : Call} (h : Call.Turn S s call s' call') :
    (∀ job ∈ s'.queue, job ∈ s.queue ∨ call.job? = some job) ∧
      ∀ job, call'.job? = some job → s'.Asks job := by
  have hqueue : ∀ job ∈ s.queue, job ∈ s.queue ∨ call.job? = some job := fun _ hjob => Or.inl hjob
  cases h with
  | reads before after =>
    refine ⟨hqueue, fun job hjob => ?_⟩
    rw [Call.job?_of_isPlain after] at hjob
    cases hjob
  | inserts =>
    refine ⟨hqueue, fun job hjob => ?_⟩
    cases hjob
    exact ⟨_, by rw [TaskRegistry.lastSeen?_insert]; exact if_pos rfl, rfl, rfl⟩
  | sends =>
    refine ⟨fun job hjob => ?_, by rintro _ ⟨⟩⟩
    rcases List.mem_append.mp hjob with hold | hnew
    · exact Or.inl hold
    · exact Or.inr (congrArg some (List.mem_singleton.mp hnew).symm)
  | @refuses _ left _ _ turn next | @announces _ left _ _ _ _ turn next =>
    rw [turn.frame.1]
    refine ⟨hqueue, fun job hjob => ?_⟩
    subst next
    cases left <;> cases hjob
  | counts | returns | cancels | fails | leaves | forgets | refusesFurther | signals | takes =>
    exact ⟨hqueue, by rintro _ ⟨⟩⟩

/-- The dispatcher takes its jobs from the queue, in order, and starts runners for some of those
that it lets go of. -/
theorem Dispatcher.Turn.jobs {dispatcher dispatcher' : Dispatcher} {runners started : List Runner}
    (turn : Dispatcher.Turn S runners s dispatcher s' dispatcher' started) :
    ∃ gone, dispatcher.job?.toList ++ s.queue = gone ++ (dispatcher'.job?.toList ++ s'.queue) ∧
      ∀ r ∈ started, r.job ∈ gone := by
  have hnone {gone : List Job} : ∀ r ∈ ([] : List Runner), r.job ∈ gone :=
    fun r hr => absurd hr List.not_mem_nil
  cases turn with
  | receives next =>
    refine ⟨[], ?_, hnone⟩
    rw [next]
    rfl
  | @drains job queue next =>
    refine ⟨[job], ?_, hnone⟩
    rw [next]
    rfl
  | stops | proceeds | acquires | withdraws | confirms | withholds | admits | closes | empties
  | ends => exact ⟨[], rfl, hnone⟩
  | @dismisses job | @halts job | @givesBack job => exact ⟨[job], rfl, hnone⟩
  | @spawns job =>
    refine ⟨[job], rfl, fun r hr => ?_⟩
    rw [List.mem_singleton.mp hr]
    exact List.mem_singleton_self _
  | @finishes ending left stopping _ done =>
    rw [(Ending.turn done).frame.1]
    refine ⟨[], ?_, hnone⟩
    cases left <;> cases stopping <;> rfl
  | @finishesDrained ending left _ done =>
    rw [(Ending.turn done).frame.1]
    refine ⟨[], ?_, hnone⟩
    cases left <;> rfl

/-! ### All states -/

/-- Every job, wherever it is, asks for what its record asks for. -/
structure State.IsAsked (s : State σ) : Prop where
  queue : ∀ job ∈ s.shared.queue, s.shared.Asks job
  dispatcher : ∀ job, s.dispatcher.job? = some job → s.shared.Asks job
  calls : ∀ call ∈ s.calls, ∀ job, call.job? = some job → s.shared.Asks job
  runners : ∀ r ∈ s.runners, s.shared.Asks r.job

namespace State.IsAsked

variable {s : State σ} (h : s.IsAsked)
include h

/-- A runner or its worker has the job that it had. -/
theorem own {i : Nat} {r r' : Runner} {shared : Shared σ} (hr : s.runners[i]? = some r)
    (hjob : r'.job = r.job) (hqueue : shared.queue = s.shared.queue)
    (hkeeps : s.shared.registry.KeepsSources shared.registry) :
    State.IsAsked { s with shared := shared, runners := s.runners.set i r' } where
  queue := by
    intro job hmem
    rw [hqueue] at hmem
    exact (h.queue job hmem).mono hkeeps
  dispatcher := fun job hmem => (h.dispatcher job hmem).mono hkeeps
  calls := fun call hcall job hmem => (h.calls call hcall job hmem).mono hkeeps
  runners := by
    intro q hq
    rcases List.mem_or_eq_of_mem_set hq with hold | rfl
    · exact (h.runners q hold).mono hkeeps
    · rw [hjob]
      exact (h.runners r (List.mem_of_getElem? hr)).mono hkeeps

/-- A call has a new job only when it has inserted its record, and the job that it sends is in the
queue from then on. -/
theorem call {i : Nat} {call call' : Call} {shared : Shared σ} (hsound : s.IsSound S)
    (hcall : s.calls[i]? = some call) (turn : Call.Turn S s.shared call shared call') :
    State.IsAsked { s with shared := shared, calls := s.calls.set i call' } := by
  have hkeeps := turn.keepsSources hsound.idOf_not_mem
  obtain ⟨hqueue, hnext⟩ := turn.jobs
  exact {
    queue := by
      intro job hjob
      rcases hqueue job hjob with hold | hsent
      · exact (h.queue job hold).mono hkeeps
      · exact (h.calls call (List.mem_of_getElem? hcall) job hsent).mono hkeeps
    dispatcher := fun job hjob => (h.dispatcher job hjob).mono hkeeps
    calls := by
      intro other hother job hjob
      rcases List.mem_or_eq_of_mem_set hother with hold | rfl
      · exact (h.calls other hold job hjob).mono hkeeps
      · exact hnext job hjob
    runners := fun r hr => (h.runners r hr).mono hkeeps }

/-- The jobs of the dispatcher and of the runners that it starts come from the queue. -/
theorem dispatcher_turn {dispatcher : Dispatcher} {shared : Shared σ} {started : List Runner}
    (turn : Dispatcher.Turn S s.runners s.shared s.dispatcher shared dispatcher started) :
    State.IsAsked
      { s with shared := shared, dispatcher := dispatcher, runners := s.runners ++ started } := by
  have hkeeps := turn.keepsSources
  obtain ⟨gone, hjobs, hstarted⟩ := turn.jobs
  -- All jobs behind the turn were with the dispatcher or in the queue before it.
  have hasked : ∀ job ∈ gone ++ (dispatcher.job?.toList ++ shared.queue), shared.Asks job := by
    intro job hjob
    rw [← hjobs] at hjob
    rcases List.mem_append.mp hjob with hown | hqueued
    · exact (h.dispatcher job (Option.mem_toList.mp hown)).mono hkeeps
    · exact (h.queue job hqueued).mono hkeeps
  simp only [List.mem_append, Option.mem_toList] at hasked
  exact {
    queue := fun job hjob => hasked job (Or.inr (Or.inr hjob))
    dispatcher := fun job hjob => hasked job (Or.inr (Or.inl hjob))
    calls := fun call hcall job hjob => (h.calls call hcall job hjob).mono hkeeps
    runners := by
      intro r hr
      rcases List.mem_append.mp hr with hold | hnew
      · exact (h.runners r hold).mono hkeeps
      · exact hasked r.job (Or.inl (hstarted r hnew)) }

/-- A request brings no job. -/
theorem request (r : Request) : (s.request r).IsAsked := by
  refine ⟨h.queue, h.dispatcher, fun call hcall job hjob => ?_, h.runners⟩
  rcases List.mem_append.mp hcall with hold | hnew
  · exact h.calls call hold job hjob
  · rw [List.mem_singleton.mp hnew] at hjob
    cases r <;> cases hjob

/-- After every act each job asks for what its record asks for: the job only changes hands, and its
record keeps what was asked for. -/
theorem act (hsound : s.IsSound S) (a : Act) : (s.act S a).IsAsked := by
  have hturn := s.turn S a
  generalize s.act S a = t at hturn ⊢
  cases hturn with
  | rests => exact h
  | requests r => exact h.request r
  | letsGo source => exact ⟨h.queue, h.dispatcher, h.calls, h.runners⟩
  | call made turn => exact h.call hsound made turn
  | dispatcher turn => exact h.dispatcher_turn turn
  | runner started turn => exact h.own started turn.job turn.flags.1 turn.keepsSources
  | worker started processed job stage => exact h.own started job rfl (.refl _)

end State.IsAsked

/-- At the beginning there are no jobs. -/
theorem State.isAsked_start (limits : Config.Pipeline) (store : σ) (held : List String) :
    (State.start limits store held).IsAsked where
  queue := fun _ hjob => absurd hjob List.not_mem_nil
  dispatcher := nofun
  calls := fun _ hcall => absurd hcall List.not_mem_nil
  runners := fun _ hr => absurd hr List.not_mem_nil

/-- Whatever happens, every job asks for what its record asks for. -/
theorem State.isAsked_run (S : Setting σ) (store : σ) (held : List String) (acts : List Act) :
    ((State.start S.limits store held).run S acts).IsAsked := by
  refine State.run_induction (P := fun _ s => s.IsAsked) (isAsked_start S.limits store held) ?_ acts
  exact fun acts a h => h.act (State.isSound_run S store held acts) a

end CodeIndex.Scheduler
