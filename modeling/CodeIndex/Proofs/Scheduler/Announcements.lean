import CodeIndex.Proofs.Scheduler.Debts
/-!
# Announcements

Only tasks that have ended are announced, and since ended tasks stay as they are, an announcement
tells how the task ended (`State.IsFaithful`). Together with the debts this says what is told of
every task (`announcement_exact`).
-/

namespace CodeIndex

/-- The events that tell of a task once it has ended. -/
def Task.announcement (t : Task) : List Event :=
  match t.status with
  | .completed => [.taskCompleted t]
  | .failed => [.taskFailed t]
  | .pending | .processing => []

namespace Scheduler

variable {σ : Type} {S : Setting σ} {s s' : Shared σ}

/-! ### What is told -/

/-- The task has ended, as `t` tells. -/
def Shared.HasEndedAs (s : Shared σ) (t : Task) : Prop :=
  s.registry.lastSeen? t.id = some t ∧ t.status.isTerminal = true

/-- Only tasks that have ended are read and announced. -/
def Ending.IsFaithful (s : Shared σ) : Ending → Prop
  | lookUp id => ∃ t, t.id = id ∧ s.HasEndedAs t
  | announce t => s.HasEndedAs t
  | settle .. | evict => True

/-- An ended task stays as it ended. -/
theorem Shared.HasEndedAs.mono {t : Task} (h : s.HasEndedAs t) (hs : s.Advances s') :
    s'.HasEndedAs t :=
  ⟨hs.ended t.id t h.1 h.2, h.2⟩

theorem Ending.IsFaithful.mono {ending : Ending} (h : ending.IsFaithful s)
    (hs : s.Advances s') : ending.IsFaithful s' := by
  cases ending with
  | lookUp id =>
    obtain ⟨t, hid, hended⟩ := h
    exact ⟨t, hid, hended.mono hs⟩
  | announce t => exact Shared.HasEndedAs.mono h hs
  | settle | evict => trivial

/-- What is told in a turn is about tasks that have ended so, and so is what is left to do. -/
structure Shared.Tells (s s' : Shared σ) (left : Option Ending) : Prop where
  events : ∀ e ∈ s'.desk.events, e ∈ s.desk.events ∨ e.task? = none ∨
    ∃ t, e = .ofEnded t ∧ s'.HasEndedAs t
  left : ∀ ending, left = some ending → ending.IsFaithful s'

namespace Shared.Tells

/-- Nothing is told, and what is left to do is about a task that has ended so. -/
theorem of_desk (hdesk : s'.desk = s.desk) {left : Option Ending}
    (hleft : ∀ ending, left = some ending → ending.IsFaithful s') : s.Tells s' left :=
  ⟨fun _ he => Or.inl (hdesk ▸ he), hleft⟩

/-- Nothing is told, and nothing is left to do. -/
theorem of_none (hdesk : s'.desk = s.desk) : s.Tells s' none :=
  of_desk hdesk fun _ h => nomatch h

/-- A task that was ended just now is read next. -/
theorem of_moves {id : String} {next : TaskStatus} {error : Option String} {r : TaskRegistry}
    (hmoves : s.registry.Moves r id next error) (hterminal : next.isTerminal = true) :
    s.Tells (s.withRegistry r) (some (.lookUp id)) := by
  refine ⟨fun _ he => Or.inl he, fun ending hending => ?_⟩
  cases hending
  obtain ⟨_, u, _, _, hu, hstatus, _⟩ := hmoves.moved
  have hid := TaskRegistry.id_of_lastSeen? hu
  refine ⟨u, hid, ?_, by rw [hstatus, hterminal]⟩
  rw [hid]
  exact hu

/-- The event of a processed file is about no task. -/
theorem of_process (p : Ingest.Processor σ) (ctx : Ingest.Context) (file : Source.File)
    (parsers : Ingest.ParserCache) :
    s.Tells { s with desk := (Ingest.process p ctx file parsers s.desk).2.2 } none := by
  refine ⟨fun e he => ?_, fun _ hending => nomatch hending⟩
  obtain ⟨told, hevents, hnone⟩ := Ingest.events_process p ctx file parsers s.desk
  rcases List.mem_append.mp (hevents ▸ he) with hold | hnew
  · exact Or.inl hold
  · rw [List.mem_singleton.mp hnew]
    exact Or.inr (Or.inl hnone)

end Shared.Tells

/-- The end of a task tells of the record that it has read. It has read it after the task had ended,
so the record has not changed since. -/
theorem Ending.Turn.tells {ending : Ending} {left : Option Ending}
    (turn : Ending.Turn S s ending s' left) (h : ending.IsFaithful s) : s.Tells s' left := by
  cases turn with
  | @settles id error r moves =>
    refine .of_moves moves ?_
    split <;> rfl
  | stays => exact .of_none rfl
  | @finds id t found =>
    refine .of_desk rfl fun ending hending => ?_
    cases hending
    -- The record that is found is the one that has ended.
    obtain ⟨u, rfl, hended⟩ := h
    cases hended.1.symm.trans (TaskRegistry.lastSeen?_of_get? found)
    exact hended
  | misses =>
    refine .of_desk rfl fun ending hending => ?_
    cases hending
    trivial
  | @announces t =>
    refine ⟨fun e he => ?_, fun ending hending => ?_⟩
    · rcases List.mem_append.mp he with hold | hnew
      · exact Or.inl hold
      · exact Or.inr (Or.inr ⟨t, List.mem_singleton.mp hnew, h⟩)
    · cases hending
      trivial
  | evicts => exact .of_none rfl

/-- A call tells only of tasks that have ended so: of one that it could not send, or that it has
failed. -/
theorem Call.Turn.tells {call call' : Call} (turn : Call.Turn S s call s' call')
    (h : ∀ ending, call.ending? = some ending → ending.IsFaithful s) :
    s.Tells s' call'.ending? := by
  cases turn with
  | reads _ after =>
    rw [ending?_of_isPlain after]
    exact .of_none rfl
  | counts | inserts | sends | cancels | leaves | forgets | refusesFurther | signals | takes =>
    exact .of_none rfl
  | returns =>
    refine .of_desk rfl fun ending hending => ?_
    cases hending
    trivial
  | refuses turn next =>
    rw [next, ending?_refuse]
    exact turn.tells (h _ rfl)
  | fails moves => exact .of_moves moves rfl
  | announces turn next =>
    rw [next, ending?_announceCancelled]
    exact turn.tells (h _ rfl)

/-- The dispatcher tells only of tasks that have ended so. -/
theorem Dispatcher.Turn.tells {dispatcher dispatcher' : Dispatcher}
    {runners started : List Runner}
    (turn : Dispatcher.Turn S runners s dispatcher s' dispatcher' started)
    (h : ∀ ending, dispatcher.ending? = some ending → ending.IsFaithful s) :
    s.Tells s' dispatcher'.ending? := by
  rcases turn.ending_cases with ⟨ending, hending, turn⟩ | ⟨_, hdesk, _, _, _, hsettles⟩
  · exact turn.tells (h ending hending)
  · refine .of_desk hdesk fun ending hending => ?_
    obtain ⟨id, error, rfl⟩ := hsettles ending hending
    trivial

/-- A runner tells only of its own task, and only once that has ended so. -/
theorem Runner.Turn.tells {r r' : Runner} (turn : Runner.Turn S s r s' r')
    (h : ∀ ending, r.stage.ending? = some ending → ending.IsFaithful s) :
    s.Tells s' r'.stage.ending? := by
  cases turn with
  | begins | declines | givesBack => exact .of_none rfl
  | works _ _ after | updates _ _ after =>
    rw [Stage.ending?_of_isWorking after]
    exact .of_none rfl
  | concludes =>
    refine .of_desk rfl fun ending hending => ?_
    cases hending
    trivial
  | finishes stage turn next =>
    rw [next, Stage.ending?_finish]
    exact turn.tells (h _ (by rw [stage]; rfl))

/-- All that was told and is still to be told is about tasks that have ended so. -/
structure State.IsFaithful (s : State σ) : Prop where
  events : ∀ e ∈ s.shared.desk.events, ∀ t, e.task? = some t →
    e = .ofEnded t ∧ s.shared.HasEndedAs t
  calls : ∀ call ∈ s.calls, ∀ ending, call.ending? = some ending → ending.IsFaithful s.shared
  dispatcher : ∀ ending, s.dispatcher.ending? = some ending → ending.IsFaithful s.shared
  runners : ∀ r ∈ s.runners, ∀ ending, r.stage.ending? = some ending →
    ending.IsFaithful s.shared

/-- Whatever is told in a turn, what was told before stays true. -/
theorem State.IsFaithful.events_of_tells {s : State σ} (h : s.IsFaithful) {left : Option Ending}
    {shared : Shared σ} (hadvances : s.shared.Advances shared)
    (htells : s.shared.Tells shared left) :
    ∀ e ∈ shared.desk.events, ∀ t, e.task? = some t → e = .ofEnded t ∧ shared.HasEndedAs t := by
  intro e he t ht
  rcases htells.events e he with hold | hnone | ⟨u, rfl, hended⟩
  · obtain ⟨heq, hended⟩ := h.events e hold t ht
    exact ⟨heq, hended.mono hadvances⟩
  · cases hnone.symm.trans ht
  · cases (Event.task?_ofEnded u).symm.trans ht
    exact ⟨rfl, hended⟩

/-- No act makes an announcement untrue, and what is told now is true. -/
theorem State.IsFaithful.act {s : State σ} (h : s.IsFaithful) (hsound : s.IsSound S) (a : Act) :
    (s.act S a).IsFaithful := by
  have hturn := s.turn S a
  have hadvances := hsound.advances a
  generalize s.act S a = s' at hturn hadvances ⊢
  -- Who does not take the turn still has only to tell of tasks that have ended so.
  have hdispatcher : ∀ ending, s.dispatcher.ending? = some ending → ending.IsFaithful s'.shared :=
    fun ending hending => (h.dispatcher ending hending).mono hadvances
  have hcalls : ∀ call ∈ s.calls, ∀ ending, call.ending? = some ending →
      ending.IsFaithful s'.shared :=
    fun call hcall ending hending => (h.calls call hcall ending hending).mono hadvances
  have hrunners : ∀ r ∈ s.runners, ∀ ending, r.stage.ending? = some ending →
      ending.IsFaithful s'.shared :=
    fun r hr ending hending => (h.runners r hr ending hending).mono hadvances
  cases hturn with
  | rests => exact h
  | requests r =>
    refine ⟨h.events, fun call hcall => ?_, hdispatcher, hrunners⟩
    rcases List.mem_append.mp hcall with hold | hnew
    · exact hcalls call hold
    · rw [List.mem_singleton.mp hnew]
      intro ending hending
      cases r <;> cases hending
  | letsGo => exact ⟨h.events, hcalls, hdispatcher, hrunners⟩
  | call made turn =>
    have htells := turn.tells (h.calls _ (List.mem_of_getElem? made))
    refine ⟨h.events_of_tells hadvances htells, fun call hcall => ?_, hdispatcher, hrunners⟩
    rcases List.mem_or_eq_of_mem_set hcall with hold | rfl
    · exact hcalls call hold
    · exact htells.left
  | dispatcher turn =>
    have htells := turn.tells h.dispatcher
    refine ⟨h.events_of_tells hadvances htells, hcalls, htells.left, fun r hr => ?_⟩
    rcases List.mem_append.mp hr with hold | hnew
    · exact hrunners r hold
    · rcases turn.started_cases with rfl | ⟨job, _, _, _, rfl⟩
      · cases hnew
      · rw [List.mem_singleton.mp hnew]
        exact fun _ hending => nomatch hending
  | runner started turn =>
    have htells := turn.tells (h.runners _ (List.mem_of_getElem? started))
    refine ⟨h.events_of_tells hadvances htells, hcalls, hdispatcher, fun r hr => ?_⟩
    rcases List.mem_or_eq_of_mem_set hr with hold | rfl
    · exact hrunners r hold
    · exact htells.left
  | @worker i k r r' desk started processed job stage =>
    refine ⟨?_, hcalls, hdispatcher, fun v hv => ?_⟩
    · rcases processed with rfl | ⟨file, parsers, rfl⟩
      · exact h.events
      · exact h.events_of_tells hadvances (.of_process S.processor r.context file parsers)
    · rcases List.mem_or_eq_of_mem_set hv with hold | rfl
      · exact hrunners v hold
      · rw [stage]
        exact hrunners r (List.mem_of_getElem? started)

/-! ### One announcement for every end -/

/-- After any acts, all that was told is about tasks that ended as it was told. -/
theorem State.isFaithful_run (S : Setting σ) (store : σ) (held : List String) (acts : List Act) :
    ((State.start S.limits store held).run S acts).IsFaithful := by
  refine run_induction (P := fun _ s => s.IsFaithful) ⟨?_, ?_, ?_, ?_⟩ (fun acts a h => ?_) acts
  · intro e he
    cases he
  · intro call hcall
    cases hcall
  · intro ending hending
    cases hending
  · intro r hr
    cases hr
  · exact h.act (isSound_run S store held acts) a

/-- The announcements of a task for which nobody owes one: none if it was missed, and otherwise the
one that its record calls for. How many there are is in the debts; what they tell is true. -/
theorem State.filter_announces {s : State σ} {missed : List String} (hsound : s.IsSound S)
    (howes : s.Owes missed) (hfaithful : s.IsFaithful) {a : TaskRecord}
    (ha : a ∈ s.shared.registry.records) (howed : a.id ∉ s.owed) :
    s.shared.desk.events.filter (Event.announces a.id)
      = if a.id ∈ missed then [] else a.task.announcement := by
  have hrecord := TaskRegistry.record?_of_mem hsound.nodup_ids ha
  have hseen := TaskRegistry.lastSeen?_of_record? hrecord
  have hover : s.shared.isOver a.id = a.task.status.isTerminal := by
    rw [Shared.isOver, hseen, Option.any_some]
  have hcount := howes a.id
  rw [Multiset.count_eq_zero.mpr howed, add_zero, hover, count_toldIds] at hcount
  -- Told and missed together are at most one, and just one if the task has ended.
  by_cases hmissed : a.id ∈ missed
  · -- What was missed is not told as well.
    have hpos : 0 < missed.count a.id := List.count_pos_iff.mpr hmissed
    have hle := Bool.toNat_le a.task.status.isTerminal
    rw [if_pos hmissed]
    exact List.eq_nil_of_length_eq_zero (by omega)
  · rw [List.count_eq_zero.mpr hmissed, add_zero] at hcount
    rw [if_neg hmissed, Task.announcement]
    have hnone : a.task.status.isTerminal = false →
        s.shared.desk.events.filter (Event.announces a.id) = [] := by
      intro hrunning
      rw [hrunning] at hcount
      exact List.eq_nil_of_length_eq_zero hcount
    have hone : a.task.status.isTerminal = true →
        s.shared.desk.events.filter (Event.announces a.id) = [.ofEnded a.task] := by
      intro hended
      rw [hended] at hcount
      obtain ⟨e, he⟩ := List.length_eq_one_iff.mp hcount
      have hmem : e ∈ s.shared.desk.events.filter (Event.announces a.id) :=
        he ▸ List.mem_singleton_self e
      obtain ⟨hevent, habout⟩ := List.mem_filter.mp hmem
      obtain ⟨t, ht, hid⟩ := (Option.any_eq_true _ _).mp habout
      obtain ⟨rfl, htold, _⟩ := hfaithful.events e hevent t ht
      rw [beq_iff_eq.mp hid] at htold
      cases hseen.symm.trans htold
      exact he
    cases hstatus : a.task.status with
    | pending | processing => exact hnone (by rw [hstatus]; rfl)
    | completed | failed =>
      rw [hone (by rw [hstatus]; rfl), Event.ofEnded, hstatus]
      rfl

/-- A task of which nobody is to announce the end any more has been announced once, as it ended, if
it has ended and its record was found when it was read to be announced, and otherwise never. -/
theorem announcement_exact (S : Setting σ) (store : σ) (held : List String) (acts : List Act) :
    ∀ a ∈ ((State.start S.limits store held).run S acts).shared.registry.records,
      a.id ∉ ((State.start S.limits store held).run S acts).owed →
      ((State.start S.limits store held).run S acts).shared.desk.events.filter
          (Event.announces a.id)
        = if a.id ∈ (State.start S.limits store held).collect S State.misses acts then []
          else a.task.announcement :=
  fun _ => State.filter_announces (State.isSound_run S store held acts)
    (State.owes_run S store held acts) (State.isFaithful_run S store held acts)

/-- A task that completes is announced. -/
theorem announcement_exact_completed :
    let s := (State.start { fileWorkers := 1 } Store.Memory.empty []).run
      (.withoutFiles { fileWorkers := 1 })
      (Act.admission 0 ++ Act.work 0 ++ Move.turns (.runner 0) 6)
    let t : Task :=
      { Task.submitted "T0" "s" none none .epoch with
        status := .completed, startedAt := some .epoch, finishedAt := some .epoch }
    ⟨t, false, true⟩ ∈ s.shared.registry.records ∧ "T0" ∉ s.owed ∧
      s.shared.desk.events.filter (Event.announces "T0") = [.taskCompleted t] := by
  have hexact := announcement_exact (.withoutFiles { fileWorkers := 1 }) Store.Memory.empty []
    (Act.admission 0 ++ Act.work 0 ++ Move.turns (.runner 0) 6)
    ⟨{ Task.submitted "T0" "s" none none .epoch with
        status := .completed, startedAt := some .epoch, finishedAt := some .epoch }, false, true⟩
    (by decide +kernel) (by decide +kernel)
  refine ⟨by decide +kernel, by decide +kernel, hexact.trans (if_neg ?_)⟩
  decide +kernel

/-- A task that completes is never announced if it is forgotten before its record is read. -/
theorem announcement_missed :
    let S := Setting.withoutFiles { fileWorkers := 1 }
    let acts := Act.admission 0 ++ Act.work 0 ++ Move.turns (.runner 0) 2
      ++ [.request (.forget "T0"), .move (.call 1)] ++ Move.turns (.runner 0) 3
    let s := (State.start S.limits Store.Memory.empty []).run S acts
    (s.shared.registry.lastSeen? "T0").map (·.status) = some .completed ∧
      s.runners.all Runner.hasEnded = true ∧ s.owed = 0 ∧ s.shared.desk.events = [] := by
  decide +kernel

end Scheduler

end CodeIndex
