import CodeIndex.Proofs.Scheduler.Moves
/-!
# Debts

Who ends a task owes one announcement for it. The debt is paid by an event, or it is dropped when
the record of the task has been let go before it was read (`State.misses`). Nothing is announced
without a debt, so at any time the end of every task is told, owed or missed, and just one of these
(`State.owes_run`).
-/

namespace CodeIndex

/-! ### Events about tasks -/

/-- The task whose end an event announces. -/
def Event.task? : Event → Option Task
  | taskCompleted t | taskFailed t => some t
  | fileIngested .. | fileFailed .. => none

theorem Event.task?_ofEnded (t : Task) : (Event.ofEnded t).task? = some t := by
  rw [ofEnded]
  split <;> rfl

/-- The tasks whose ends are announced, as often as they are. -/
def toldIds (events : List Event) : Multiset String :=
  (events.filterMap fun e => e.task?.map Task.id : List String)

/-- The event announces the end of the task. -/
def Event.announces (j : String) (e : Event) : Bool :=
  e.task?.any (·.id == j)

theorem count_toldIds (events : List Event) (j : String) :
    (toldIds events).count j = (events.filter (Event.announces j)).length := by
  induction events with
  | nil => rfl
  | cons e events ih =>
    simp only [toldIds, Multiset.coe_count] at ih ⊢
    rw [List.filterMap_cons, List.filter_cons, Event.announces]
    cases e.task? with
    | none => exact ih
    | some t =>
      rw [Option.map_some, Option.any_some, List.count_cons, ih]
      split <;> rfl

theorem toldIds_append (xs ys : List Event) : toldIds (xs ++ ys) = toldIds xs + toldIds ys := by
  rw [toldIds, List.filterMap_append, ← Multiset.coe_add]
  rfl

namespace Ingest

variable {σ : Type} (p : Processor σ) (ctx : Context)

theorem events_save (a : Analysis) (d : Desk σ) :
    ∃ e, (save p ctx a d).2.events = d.events ++ [e] ∧ e.task? = none := by
  simp only [save]
  split <;> exact ⟨_, rfl, rfl⟩

/-- A file is told of once, and no task is. -/
theorem events_process (file : Source.File) (cache : ParserCache) (d : Desk σ) :
    ∃ e, (process p ctx file cache d).2.2.events = d.events ++ [e] ∧ e.task? = none := by
  simp only [process]
  split
  · exact ⟨_, rfl, rfl⟩
  · exact events_save p ctx _ d

theorem toldIds_process (file : Source.File) (cache : ParserCache) (d : Desk σ) :
    toldIds (process p ctx file cache d).2.2.events = toldIds d.events := by
  obtain ⟨e, hevents, hnone⟩ := events_process p ctx file cache d
  rw [hevents, toldIds_append, toldIds, toldIds, List.filterMap_cons, hnone]
  exact add_zero _

end Ingest

namespace Scheduler

variable {σ : Type} {S : Setting σ} {s s' : Shared σ}

/-! ### Debts -/

/-- The task that is still to be announced. -/
def Ending.owed : Ending → Multiset String
  | lookUp id => {id}
  | announce t => {t.id}
  | settle .. | evict => 0

/-- What a call does at the end of a task. -/
def Call.ending? : Call → Option Ending
  | refuse ending | announceCancelled ending _ _ => some ending
  | _ => none

/-- What a runner does at the end of its task. -/
def Runner.Stage.ending? : Runner.Stage → Option Ending
  | finish ending => some ending
  | _ => none

section Ending?

variable (left : Option Ending)

theorem Call.ending?_of_isPlain {call : Call} (h : call.isPlain = true) : call.ending? = none := by
  cases call <;> first | rfl | cases h

theorem Call.ending?_refuse (fault : Fault) :
    (left.elim (Call.fail fault) Call.refuse).ending? = left := by
  cases left <;> rfl

theorem Call.ending?_announceCancelled (id : String) (seen : Task) :
    (left.elim (Call.reread id seen) (Call.announceCancelled · id seen)).ending? = left := by
  cases left <;> rfl

theorem Runner.Stage.ending?_of_isWorking {stage : Runner.Stage} (h : stage.isWorking = true) :
    stage.ending? = none := by
  cases stage <;> first | rfl | cases h

theorem Runner.Stage.ending?_finish :
    (left.elim Runner.Stage.giveBack Runner.Stage.finish).ending? = left := by
  cases left <;> rfl

end Ending?

/-- The task that is still to be announced, if there is an end of a task. -/
def owedBy (ending : Option Ending) : Multiset String :=
  ending.elim 0 Ending.owed

/-- All tasks that are still to be announced by calls. -/
def callsOwed (calls : List Call) : Multiset String :=
  (calls.map fun call => owedBy call.ending?).sum

/-- All tasks that are still to be announced by runners. -/
def runnersOwed (runners : List Runner) : Multiset String :=
  (runners.map fun r => owedBy r.stage.ending?).sum

/-- All tasks that are still to be announced. -/
def State.owed (s : State σ) : Multiset String :=
  callsOwed s.calls + owedBy s.dispatcher.ending? + runnersOwed s.runners

/-- The task that is not announced since its record is not found any more. -/
def Ending.misses (s : Shared σ) : Ending → List String
  | lookUp id => if (s.registry.get? id).isSome then [] else [id]
  | _ => []

/-- What is done at the end of a task by the part whose turn it is. -/
def State.ending? (s : State σ) : Move → Option Ending
  | .call i => s.calls[i]?.bind Call.ending?
  | .dispatcher => s.dispatcher.ending?
  | .runner i => s.runners[i]?.bind (·.stage.ending?)
  | .worker .. => none

/-- The task that is missed in an act. -/
def State.misses (s : State σ) : Act → List String
  | .move m => (s.ending? m).elim [] (Ending.misses s.shared)
  | .request _ | .letGo _ => []

/-- The task has ended. -/
def Shared.isOver (s : Shared σ) (j : String) : Bool :=
  (s.registry.lastSeen? j).any (·.status.isTerminal)

/-- Whoever ends a task owes an announcement, and whoever owes one less has told it or missed it. -/
def Shared.Notifies (s s' : Shared σ) (before after : Multiset String) (missed : List String) :
    Prop :=
  ∀ j, (toldIds s'.desk.events).count j + after.count j + missed.count j + (s.isOver j).toNat
    = (toldIds s.desk.events).count j + before.count j + (s'.isOver j).toNat

namespace Shared.Notifies

variable {debts : Multiset String}

theorem refl (s : Shared σ) : s.Notifies s debts debts [] :=
  fun _ => rfl

/-- No event is told and no task ends. -/
theorem of_lastSeen? (hregistry : ∀ j, (s'.registry.lastSeen? j).any (·.status.isTerminal)
      = (s.registry.lastSeen? j).any (·.status.isTerminal))
    (htold : toldIds s'.desk.events = toldIds s.desk.events) :
    s.Notifies s' debts debts [] := by
  intro j
  have hover : s'.isOver j = s.isOver j := hregistry j
  rw [hover, htold]
  rfl

/-- No task changes and nothing happens on the desk. -/
theorem of_keeps (hregistry : s.registry.Keeps s'.registry) (hdesk : s'.desk = s.desk) :
    s.Notifies s' debts debts [] :=
  of_lastSeen? (fun j => by rw [hregistry.lastSeen?]) (by rw [hdesk])

/-- One task moves, and whoever moved it owes an announcement if it has ended. -/
theorem of_moves {id : String} {next : TaskStatus} {error : Option String} {r : TaskRegistry}
    (hmoves : s.registry.Moves r id next error) :
    s.Notifies (s.withRegistry r) 0 (if next.isTerminal then {id} else 0) [] := by
  intro j
  -- What moves was not over, and is so now if the new status is a last one.
  obtain ⟨t, u, ht, hcan, hu, hstatus, _⟩ := hmoves.moved
  by_cases hj : j = id
  · subst hj
    have hbefore : s.isOver j = false := by
      rw [Shared.isOver, ht, Option.any_some, ← Bool.not_eq_true]
      intro hended
      rw [TaskStatus.canMoveTo_of_isTerminal hended] at hcan
      cases hcan
    have hafter : (s.withRegistry r).isOver j = next.isTerminal := by
      show (r.lastSeen? j).any _ = _
      rw [hu, Option.any_some, hstatus]
    rw [hbefore, hafter]
    cases next.isTerminal <;> simp [Shared.withRegistry]
  · have hother : (s.withRegistry r).isOver j = s.isOver j := by
      show (r.lastSeen? j).any _ = _
      rw [hmoves.others j hj]
      rfl
    rw [hother]
    cases next.isTerminal <;> simp [Shared.withRegistry, hj]

end Shared.Notifies

/-- The end of a task takes on a debt when it moves the record to its last status. It pays with the
event, unless the record is gone when it is to be read. -/
theorem Ending.Turn.notifies {ending : Ending} {left : Option Ending}
    (turn : Ending.Turn S s ending s' left) :
    s.Notifies s' ending.owed (owedBy left) (ending.misses s) := by
  cases turn with
  | @settles id error r moves =>
    have hnotifies := Shared.Notifies.of_moves moves
    have hterminal : (if error.isSome then TaskStatus.failed else .completed).isTerminal = true := by
      split <;> rfl
    rw [if_pos hterminal] at hnotifies
    exact hnotifies
  | stays => exact .refl s
  | @finds id t found =>
    -- The debt is passed on: the record that was read has the id it was looked up by.
    have hid := TaskRegistry.id_of_lastSeen? (TaskRegistry.lastSeen?_of_get? found)
    have hmisses : (Ending.lookUp id).misses s = [] := by
      rw [Ending.misses, found]
      rfl
    have howed : owedBy (some (.announce t)) = {id} := by
      show {t.id} = _
      rw [hid]
    rw [hmisses, howed]
    exact .refl s
  | @misses id gone =>
    -- The debt is dropped, and counts as missed.
    intro j
    have hmisses : (Ending.lookUp id).misses s = [id] := by
      rw [Ending.misses, gone]
      rfl
    have hcount : (Ending.lookUp id).owed.count j = [id].count j := Multiset.coe_count j [id]
    have hnone : (owedBy (some .evict)).count j = 0 := Multiset.count_zero j
    rw [hmisses, hcount, hnone]
    rfl
  | @announces t =>
    intro j
    have htold : toldIds (s.emit (.ofEnded t)).desk.events
        = toldIds s.desk.events + (Ending.announce t).owed := by
      show toldIds (s.desk.events ++ [.ofEnded t]) = _
      rw [toldIds_append, toldIds, toldIds, List.filterMap_cons, Event.task?_ofEnded]
      rfl
    rw [htold, Multiset.count_add]
    rfl
  | evicts keeps => exact .of_keeps keeps rfl

/-- A call runs into a debt only when it fails a pending task, and from then on it owes what is left
to do at the end of that task. An inserted task has not ended, so it adds none. -/
theorem Call.Turn.notifies {call call' : Call} (turn : Call.Turn S s call s' call')
    (hnew : idOf s.issued ∉ s.registry.ids) :
    s.Notifies s' (owedBy call.ending?) (owedBy call'.ending?)
      (call.ending?.elim [] (Ending.misses s)) := by
  cases turn with
  | reads before after =>
    rw [ending?_of_isPlain before, ending?_of_isPlain after]
    exact .refl s
  | counts | returns | leaves => exact .refl s
  | @inserts source branch retryOf =>
    refine .of_lastSeen? (fun j => ?_) rfl
    show ((s.registry.insert _).lastSeen? j).any _ = _
    rw [TaskRegistry.lastSeen?_insert]
    split
    · rename_i hj
      subst hj
      have hnone : s.registry.lastSeen? (idOf s.issued) = none :=
        TaskRegistry.lastSeen?_eq_none hnew
      show false = (s.registry.lastSeen? (idOf s.issued)).any _
      rw [hnone, Option.any_none]
    · rfl
  | sends | refusesFurther | signals | takes => exact .of_lastSeen? (fun _ => rfl) rfl
  | refuses turn next =>
    rw [next, ending?_refuse]
    exact turn.notifies
  | cancels accepted => exact .of_keeps (TaskRegistry.keeps_requestCancel accepted) rfl
  | fails moves => exact .of_moves moves
  | announces turn next =>
    rw [next, ending?_announceCancelled]
    exact turn.notifies
  | forgets keeps => exact .of_keeps keeps rfl

/-- The dispatcher only has debts at the end of a job that it does not start. -/
theorem Dispatcher.Turn.notifies {dispatcher dispatcher' : Dispatcher}
    {runners started : List Runner}
    (turn : Dispatcher.Turn S runners s dispatcher s' dispatcher' started) :
    s.Notifies s' (owedBy dispatcher.ending?) (owedBy dispatcher'.ending?)
      (dispatcher.ending?.elim [] (Ending.misses s)) := by
  rcases turn.ending_cases with ⟨ending, hending, turn⟩ |
    ⟨hregistry, hdesk, _, _, hnone, hsettles⟩
  · rw [hending]
    exact turn.notifies
  · have howed : owedBy dispatcher'.ending? = 0 := by
      cases hending : dispatcher'.ending? with
      | none => rfl
      | some ending =>
        obtain ⟨id, error, rfl⟩ := hsettles ending hending
        rfl
    rw [hnone, howed]
    exact .of_lastSeen? (fun j => by rw [hregistry]) (by rw [hdesk])

/-- A runner owes nothing before the end of its task: what it counts in the record leaves the status
alone. -/
theorem Runner.Turn.notifies {r r' : Runner} {a : TaskRecord} (turn : Runner.Turn S s r s' r')
    (ha : s.registry.record? r.job.id = some a) (hstands : r.Stands a) :
    s.Notifies s' (owedBy r.stage.ending?) (owedBy r'.stage.ending?)
      (r.stage.ending?.elim [] (Ending.misses s)) := by
  cases turn with
  | begins stage moves =>
    rw [stage]
    exact .of_moves moves
  | declines stage =>
    rw [stage]
    exact .refl s
  | works _ before after =>
    rw [Stage.ending?_of_isWorking before, Stage.ending?_of_isWorking after]
    exact .refl s
  | @updates f _ _ before after same =>
    rw [Stage.ending?_of_isWorking before, Stage.ending?_of_isWorking after]
    have hf : ∀ t : Task, t.id = r.job.id → (f t).id = r.job.id := fun t ht => (same t).1.trans ht
    -- A task that is counted on runs before and after, so it is not over either time.
    refine .of_lastSeen? (fun j => ?_) rfl
    by_cases hj : j = r.job.id
    · subst hj
      have hretained := (hstands.isRunning before).2
      show ((s.registry.update _ f).lastSeen? _).any _ = _
      rw [TaskRegistry.lastSeen?_update_self hf ha hretained, TaskRegistry.lastSeen?_of_record? ha,
        Option.any_some, Option.any_some, (same a.task).2.1]
    · show ((s.registry.update _ f).lastSeen? _).any _ = _
      rw [TaskRegistry.lastSeen?_update_of_ne hf hj]
  | concludes before =>
    rw [Stage.ending?_of_isWorking before]
    exact .refl s
  | finishes stage turn next =>
    rw [stage, next, Stage.ending?_finish]
    exact turn.notifies
  | givesBack stage =>
    rw [stage]
    exact .of_lastSeen? (fun _ => rfl) rfl

/-! ### Whose turn it is -/

/-- The end of a task never has to wait. -/
theorem State.ending?_of_stuck {s : State σ} {m : Move} (h : s.step? S m = none) :
    s.ending? m = none := by
  have hmoves : ∀ ending : Ending, ∃ shared left, ending.step S s.shared = (shared, left) :=
    fun ending => ⟨_, _, rfl⟩
  cases m with
  | call i =>
    cases hcall : s.calls[i]? with
    | none => rw [ending?, hcall, Option.bind_none]
    | some call =>
      rw [ending?, hcall, Option.bind_some]
      cases call with
      | refuse ending | announceCancelled ending id seen =>
        obtain ⟨shared, left, hend⟩ := hmoves ending
        cases left <;> simp [step?, hcall, Call.step?, hend] at h
      | readFailed id | check source branch retryOf | count source branch retryOf
      | insert source branch retryOf | send job | requestCancel id | failPending id seen
      | reread id seen | forget id | follow id | awaitEnd id | refuseFurther | signalStop
      | takeDispatcher | awaitDispatcher | done reply => rfl
  | dispatcher =>
    rw [ending?]
    cases hdispatcher : s.dispatcher with
    | finish ending stopping | finishDrained ending =>
      obtain ⟨shared, left, hend⟩ := hmoves ending
      cases left <;> simp [step?, hdispatcher, Dispatcher.step?, hend] at h
    | select | received job | acquire job | granted job | admitted job | spawn job
    | giveBack job error | close | drain | awaitRunners | ended => rfl
  | runner i =>
    cases hr : s.runners[i]? with
    | none => rw [ending?, hr, Option.bind_none]
    | some r =>
      rw [ending?, hr, Option.bind_some]
      cases hstage : r.stage with
      | finish ending =>
        obtain ⟨shared, left, hend⟩ := hmoves ending
        cases left <;> simp [step?, hr, Runner.step?, hstage, hend] at h
      | start | enumerate | expect snapshot | nextBatch later | feed files sent later
      | await remaining later | noteFile path remaining later | record outcome remaining later
      | closeFiles | awaitWorkers | check | giveBack | ended => rfl
  | worker i k => rfl

/-! ### All debts -/

/-- The end of every task is told, owed or missed, and just one of these. -/
def State.Owes (s : State σ) (missed : List String) : Prop :=
  ∀ j, (toldIds s.shared.desk.events).count j + s.owed.count j + missed.count j
    = (s.shared.isOver j).toNat

/-- One part pays its debt or runs into one, and all others keep theirs. -/
theorem State.Owes.of_notifies {s s' : State σ} {missed now : List String}
    {before after rest : Multiset String} (h : s.Owes missed)
    (hnotifies : s.shared.Notifies s'.shared before after now)
    (hbefore : s.owed = before + rest) (hafter : s'.owed = after + rest) :
    s'.Owes (missed ++ now) := by
  intro j
  have hcount := h j
  have hmoved := hnotifies j
  rw [hbefore, Multiset.count_add] at hcount
  rw [hafter, Multiset.count_add, List.count_append]
  omega

section Parts

variable {s : State σ} {missed : List String} (h : s.Owes missed)
include h

/-- A request has no debt yet. -/
theorem State.Owes.request (r : Request) : (s.request r).Owes missed := by
  have howed : (s.request r).owed = s.owed := by
    have hnone : owedBy r.call.ending? = 0 := by cases r <;> rfl
    simp [State.owed, State.request, callsOwed, hnone]
  intro j
  rw [howed]
  exact h j

/-- In the turn of a call only its own debts change. -/
theorem State.Owes.call {i : Nat} {call call' : Call} {shared : Shared σ} (hsound : s.IsSound S)
    (hcall : s.calls[i]? = some call) (turn : Call.Turn S s.shared call shared call') :
    State.Owes { s with shared := shared, calls := s.calls.set i call' }
      (missed ++ s.misses (.move (.call i))) := by
  obtain ⟨rest, hsum, hset⟩ := exists_sum_rest (fun call => owedBy call.ending?) hcall
  have hbefore : s.owed = owedBy call.ending?
      + (rest + owedBy s.dispatcher.ending? + runnersOwed s.runners) := by
    rw [State.owed, callsOwed, hsum]
    abel
  rw [State.misses, State.ending?, hcall, Option.bind_some]
  refine h.of_notifies (turn.notifies hsound.idOf_not_mem) hbefore ?_
  rw [State.owed, callsOwed, hset]
  abel

/-- In the turn of the dispatcher only its own debts change: a runner that it starts has none. -/
theorem State.Owes.dispatcher_turn {dispatcher : Dispatcher} {shared : Shared σ}
    {started : List Runner}
    (turn : Dispatcher.Turn S s.runners s.shared s.dispatcher shared dispatcher started) :
    State.Owes
      { s with shared := shared, dispatcher := dispatcher, runners := s.runners ++ started }
      (missed ++ s.misses (.move .dispatcher)) := by
  have hstarted : runnersOwed started = 0 := by
    rcases turn.started_cases with rfl | ⟨job, _, _, _, rfl⟩ <;> rfl
  have hbefore : s.owed = owedBy s.dispatcher.ending?
      + (callsOwed s.calls + runnersOwed s.runners) := by
    rw [State.owed]
    abel
  have hrunners : runnersOwed (s.runners ++ started) = runnersOwed s.runners := by
    rw [runnersOwed, List.map_append, List.sum_append]
    exact (congrArg _ hstarted).trans (add_zero _)
  refine h.of_notifies turn.notifies hbefore ?_
  rw [State.owed, hrunners]
  abel

/-- In the turn of a runner only its own debts change. -/
theorem State.Owes.runner {i : Nat} {r r' : Runner} {shared : Shared σ} (hsound : s.IsSound S)
    (hr : s.runners[i]? = some r) (turn : Runner.Turn S s.shared r shared r') :
    State.Owes { s with shared := shared, runners := s.runners.set i r' }
      (missed ++ s.misses (.move (.runner i))) := by
  obtain ⟨a, ha, hstands⟩ := hsound.stands (List.mem_of_getElem? hr)
  obtain ⟨rest, hsum, hset⟩ := exists_sum_rest (fun r => owedBy r.stage.ending?) hr
  have hbefore : s.owed = owedBy r.stage.ending?
      + (rest + owedBy s.dispatcher.ending? + callsOwed s.calls) := by
    rw [State.owed, runnersOwed, hsum]
    abel
  rw [State.misses, State.ending?, hr, Option.bind_some]
  refine h.of_notifies (turn.notifies ha hstands) hbefore ?_
  rw [State.owed, runnersOwed, hset]
  abel

/-- A worker has no debts: the events that it puts on the desk announce no task. -/
theorem State.Owes.worker {i k : Nat} {r r' : Runner} {desk : Ingest.Desk σ}
    (hr : s.runners[i]? = some r) (hstage : r'.stage = r.stage)
    (htold : toldIds desk.events = toldIds s.shared.desk.events) :
    State.Owes { s with shared := { s.shared with desk := desk }, runners := s.runners.set i r' }
      (missed ++ s.misses (.move (.worker i k))) := by
  have hrunners : runnersOwed (s.runners.set i r') = runnersOwed s.runners := by
    obtain ⟨rest, hsum, hset⟩ := exists_sum_rest (fun r => owedBy r.stage.ending?) hr
    rw [runnersOwed, runnersOwed, hsum, hset, hstage]
  rw [State.misses, State.ending?, Option.elim_none]
  refine h.of_notifies (.of_lastSeen? (fun _ => rfl) htold) (zero_add _).symm ?_
  rw [State.owed, hrunners, zero_add]
  rfl

/-- Whatever is done, for every task what is told, owed and missed stays in balance with its end.
Only one part takes its turn, and only its debts change. -/
theorem State.Owes.act (hsound : s.IsSound S) (a : Act) :
    (s.act S a).Owes (missed ++ s.misses a) := by
  have hturn := s.turn S a
  generalize s.act S a = s' at hturn ⊢
  cases hturn with
  | rests stuck =>
    rw [State.misses, State.ending?_of_stuck stuck, Option.elim_none, List.append_nil]
    exact h
  | requests r =>
    rw [State.misses, List.append_nil]
    exact h.request r
  | letsGo source =>
    rw [State.misses, List.append_nil]
    exact h
  | call made turn => exact h.call hsound made turn
  | dispatcher turn => exact h.dispatcher_turn turn
  | runner started turn => exact h.runner hsound started turn
  | worker started processed job stage =>
    refine h.worker started stage ?_
    rcases processed with rfl | ⟨file, parsers, rfl⟩
    · rfl
    · exact Ingest.toldIds_process ..

end Parts

/-- After any acts the end of every task is told, owed or missed, and just one of these. -/
theorem State.owes_run (S : Setting σ) (store : σ) (held : List String) (acts : List Act) :
    ((State.start S.limits store held).run S acts).Owes
      ((State.start S.limits store held).collect S State.misses acts) := by
  let start := State.start S.limits store held
  refine run_induction (P := fun acts s => s.Owes (start.collect S State.misses acts)) ?_
    (fun acts a h => ?_) acts
  · exact fun _ => rfl
  · rw [collect_concat]
    exact h.act (isSound_run S store held acts) a

end Scheduler

end CodeIndex
