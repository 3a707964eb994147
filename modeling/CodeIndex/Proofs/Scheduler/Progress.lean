import CodeIndex.Proofs.Scheduler.Turns
import CodeIndex.Store.Memory
import Mathlib.Algebra.Order.BigOperators.Group.List
import Mathlib.Data.Multiset.OrderedMonoid
/-!
# Progress of tasks

`progress_exact`: whatever the requests and the order in which all parts take their turns, what a
task tells about its progress is what has happened to its files. Its numbers are those of the
outcomes that were recorded, no file is taken or processed twice, no file of a batch is taken before
all batches before it are recorded, and a task that completed has processed every file.

Everything is carried by one invariant of logs, `Log.IsSound`: jobs are in one place, every runner
is in order, and a task without a runner has not started. A call or the dispatcher keeps it because
they only handle records (`IsSound.serve`), a runner and its workers because they keep the runner in
order (`IsSound.turn`).
-/

namespace CodeIndex.Scheduler

variable {σ : Type} {S : Setting σ}

/-! ### The invariant -/

/-- What holds of every log. -/
structure Log.IsSound (S : Setting σ) (g : Log σ) : Prop where
  ids : g.state.shared.registry.ids = issuedIds g.state.shared.issued
  nodup : g.state.jobs.Nodup
  known : ∀ j ∈ g.state.jobs, j ∈ g.state.shared.registry.ids
  tells : ∀ j a, g.state.shared.registry.record? j = some a → (g.ledger j).Tells a.task
  running : ∀ r ∈ g.state.runners, ∃ a, g.state.shared.registry.record? r.job.id = some a ∧
    r.IsInOrder S.batchSize (g.ledger r.job.id) a
  unstarted : ∀ j ∉ runnerJobs g.state.runners, g.ledger j = .empty ∧
    ∀ a, g.state.shared.registry.record? j = some a → a.IsUnstarted

/-- A fresh scheduler has no tasks. -/
theorem Log.isSound_start (store : σ) (held : List String) :
    (Log.start S store held).IsSound S where
  ids := rfl
  nodup := by
    rw [Log.start, jobs_start]
    exact Multiset.nodup_zero
  known := by
    intro j hj
    rw [Log.start, jobs_start] at hj
    exact absurd hj (Multiset.notMem_zero j)
  tells := by
    intro j a ha
    cases ha
  running := by
    intro r hr
    cases hr
  unstarted := by
    intro j _
    refine ⟨rfl, fun a ha => ?_⟩
    cases ha

namespace Log.IsSound

variable {g : Log σ} (h : g.IsSound S)
include h

/-! ### Jobs -/

/-- Nobody but its runner has the job of a task that runs. -/
theorem isIdle {jobs : Multiset String} (hjobs : jobs + runnerJobs g.state.runners ≤ g.state.jobs) :
    g.state.shared.IsIdle jobs := by
  intro j hj a ha hrunning
  have hdisjoint := Multiset.nodup_of_le hjobs h.nodup
  have hnot : j ∉ runnerJobs g.state.runners :=
    Multiset.disjoint_left.mp (Multiset.nodup_add.mp hdisjoint).2.2 hj
  rcases (h.unstarted j hnot).2 a ha with ⟨hpending, _⟩ | hfailed
  · rw [hpending] at hrunning
    cases hrunning
  · rw [hfailed] at hrunning
    cases hrunning

theorem nodup_ids : g.state.shared.registry.ids.Nodup := by
  rw [h.ids]
  exact nodup_issuedIds _

/-- The next id belongs to nobody. -/
theorem idOf_not_mem : idOf g.state.shared.issued ∉ g.state.jobs := by
  intro hmem
  have hknown := h.known _ hmem
  rw [h.ids] at hknown
  exact idOf_not_mem_issuedIds _ hknown

/-! ### Calls and the dispatcher -/

/-- A task that nobody has run has neither numbers nor a ledger. -/
theorem empty_tells {j : String} (hj : j ∉ runnerJobs g.state.runners) {t : Task}
    (htally : t.tally = ⟨0, 0, 0, 0⟩) (htotal : t.totalFiles = 0) (hstatus : t.status = .pending) :
    (g.ledger j).Tells t := by
  rw [(h.unstarted j hj).1]
  exact .of_ne (hstatus.trans_ne (by decide)) htotal htally

section Serve

variable {t : State σ} (hrunners : t.runners = g.state.runners)
include hrunners

/-- Records may be handled. -/
theorem handle (hissued : t.shared.issued = g.state.shared.issued)
    (hrecords : g.state.shared.registry.IsHandled none t.shared.registry)
    (hjobs : t.jobs ≤ g.state.jobs) : IsSound S ⟨t, g.ledger⟩ := by
  exact {
    ids := by
      show t.shared.registry.ids = issuedIds t.shared.issued
      rw [hrecords.ids, hissued, h.ids]
    nodup := Multiset.nodup_of_le hjobs h.nodup
    known := by
      intro j hj
      show j ∈ t.shared.registry.ids
      rw [hrecords.ids]
      exact h.known j (Multiset.mem_of_le hjobs hj)
    tells := by
      intro j b hb
      obtain ⟨a, ha, hab⟩ := hrecords.back nofun hb
      exact (h.tells j a ha).handled hab
    running := by
      intro r hr
      rw [hrunners] at hr
      obtain ⟨a, ha, horder⟩ := h.running r hr
      obtain ⟨b, hb, hab⟩ := hrecords.record r.job.id a nofun ha
      exact ⟨b, hb, horder.handled hab⟩
    unstarted := by
      intro j hj
      rw [hrunners] at hj
      obtain ⟨hempty, hunstarted⟩ := h.unstarted j hj
      refine ⟨hempty, fun b hb => ?_⟩
      obtain ⟨a, ha, hab⟩ := hrecords.back nofun hb
      exact hab.isUnstarted (hunstarted a ha) }

/-- A task may be submitted under the next id. -/
theorem submit {source : String} {branch retryOf : Option String} {now : Time.Timestamp}
    (hissued : t.shared.issued = g.state.shared.issued + 1)
    (hrecords : t.shared.registry = g.state.shared.registry.insert
      (.submitted (idOf g.state.shared.issued) source branch retryOf now))
    (hjobs : t.jobs ≤ g.state.jobs + {idOf g.state.shared.issued}) : IsSound S ⟨t, g.ledger⟩ := by
  have hnew : idOf g.state.shared.issued ∉ g.state.shared.registry.ids := by
    rw [h.ids]
    exact idOf_not_mem_issuedIds _
  have hnobody : idOf g.state.shared.issued ∉ runnerJobs g.state.runners :=
    fun hmem => hnew (h.known _ (Multiset.mem_of_le (runnerJobs_le _) hmem))
  have hids : t.shared.registry.ids
      = g.state.shared.registry.ids ++ [idOf g.state.shared.issued] := by
    rw [hrecords, TaskRegistry.ids_insert hnew]
    rfl
  have hrecord : ∀ j, t.shared.registry.record? j =
      if idOf g.state.shared.issued = j then
        some ⟨.submitted (idOf g.state.shared.issued) source branch retryOf now, false, true⟩
      else g.state.shared.registry.record? j := by
    intro j
    rw [hrecords]
    exact TaskRegistry.record?_insert _ j
  exact {
    ids := by
      show t.shared.registry.ids = issuedIds t.shared.issued
      rw [hids, hissued, h.ids, issuedIds_succ]
    nodup := by
      refine Multiset.nodup_of_le hjobs (Multiset.nodup_add.mpr ⟨h.nodup, ?_, ?_⟩)
      · exact Multiset.nodup_singleton _
      · rw [Multiset.disjoint_singleton]
        exact h.idOf_not_mem
    known := by
      intro j hj
      show j ∈ t.shared.registry.ids
      rw [hids, List.mem_append, List.mem_singleton]
      rcases Multiset.mem_add.mp (Multiset.mem_of_le hjobs hj) with hmem | hmem
      · exact Or.inl (h.known j hmem)
      · exact Or.inr (Multiset.mem_singleton.mp hmem)
    tells := by
      intro j b (hb : t.shared.registry.record? j = some b)
      rw [hrecord] at hb
      split at hb
      · cases hb
        exact h.empty_tells (‹_ = j› ▸ hnobody) rfl rfl rfl
      · exact h.tells j b hb
    running := by
      intro r hr
      rw [hrunners] at hr
      obtain ⟨a, ha, horder⟩ := h.running r hr
      have hother : idOf g.state.shared.issued ≠ r.job.id := by
        intro heq
        exact hnobody (heq ▸ mem_runnerJobs hr)
      refine ⟨a, ?_, horder⟩
      show t.shared.registry.record? r.job.id = some a
      rw [hrecord, if_neg hother, ha]
    unstarted := by
      intro j hj
      rw [hrunners] at hj
      obtain ⟨hempty, hunstarted⟩ := h.unstarted j hj
      refine ⟨hempty, fun b (hb : t.shared.registry.record? j = some b) => ?_⟩
      rw [hrecord] at hb
      split at hb
      · cases hb
        exact Or.inl ⟨rfl, rfl⟩
      · exact hunstarted b hb }

/-- Calls and the dispatcher keep everything in order. -/
theorem serve {before after : Multiset String}
    (hserves : g.state.shared.Serves t.shared before after)
    (hjobs : ∀ new, t.shared.jobs + after ≤ g.state.shared.jobs + before + new →
      t.jobs ≤ g.state.jobs + new) : IsSound S ⟨t, g.ledger⟩ := by
  cases hserves with
  | handles hissued hrecords hle =>
    have hle := hjobs 0 (by rwa [add_zero])
    rw [add_zero] at hle
    exact h.handle hrunners hissued hrecords hle
  | inserts source branch retryOf now hissued hrecords hle =>
    exact h.submit hrunners hissued hrecords (hjobs _ hle)

end Serve

/-- The dispatcher starts a runner for its job. -/
theorem spawn {job : Job} (now : Time.Timestamp) (hjob : g.state.dispatcher = .spawn job) :
    IsSound S ⟨{ g.state with
      dispatcher := .select, runners := g.state.runners ++ [.ofJob job now] }, g.ledger⟩ := by
  have hjobs : State.jobs { g.state with
      dispatcher := .select, runners := g.state.runners ++ [.ofJob job now] } = g.state.jobs := by
    have hone : runnerJobs [.ofJob job now] = {job.id} := rfl
    simp only [State.jobs, hjob, Dispatcher.jobs, runnerJobs_append, hone, Shared.jobs]
    abel
  have hmem : job.id ∈ g.state.jobs := by
    have hdispatcher : job.id ∈ g.state.dispatcher.jobs := by
      rw [hjob]
      exact Multiset.mem_singleton_self _
    simp only [State.jobs, Multiset.mem_add]
    exact Or.inl (Or.inl (Or.inr hdispatcher))
  have hnobody : job.id ∉ runnerJobs g.state.runners := by
    intro hrun
    have hnodup := h.nodup
    rw [State.jobs, Multiset.nodup_add] at hnodup
    refine Multiset.disjoint_left.mp hnodup.2.2 ?_ hrun
    simp only [Multiset.mem_add, hjob]
    exact Or.inl (Or.inr (Multiset.mem_singleton_self _))
  exact {
    ids := h.ids
    nodup := by
      rw [hjobs]
      exact h.nodup
    known := by
      rw [hjobs]
      exact h.known
    tells := h.tells
    running := by
      intro r hr
      rcases List.mem_append.mp hr with hold | hnew
      · exact h.running r hold
      · cases List.mem_singleton.mp hnew
        obtain ⟨a, ha⟩ := TaskRegistry.exists_record? (h.known job.id hmem)
        obtain ⟨hempty, hunstarted⟩ := h.unstarted job.id hnobody
        refine ⟨a, ha, ?_, hunstarted a ha, hempty, rfl⟩
        show Runner.Balances _ (g.ledger job.id) _ _
        rw [hempty]
        exact Runner.balances_ofJob ..
    unstarted := by
      intro j hj
      refine h.unstarted j fun hmem => hj ?_
      show j ∈ runnerJobs (g.state.runners ++ [.ofJob job now])
      rw [runnerJobs_append]
      exact Multiset.mem_add.mpr (Or.inl hmem) }

/-! ### Runners and workers -/

/-- Different runners have different jobs. -/
theorem job_ne {i k : Nat} {r r' : Runner} (hr : g.state.runners[i]? = some r)
    (hr' : g.state.runners[k]? = some r') (hne : k ≠ i) : r'.job.id ≠ r.job.id := by
  intro heq
  have hnodup : (g.state.runners.map fun r => r.job.id).Nodup :=
    Multiset.coe_nodup.mp (Multiset.nodup_of_le (runnerJobs_le _) h.nodup)
  have hlt : k < (g.state.runners.map fun r => r.job.id).length := by
    rw [List.length_map]
    exact (List.getElem?_eq_some_iff.mp hr').1
  refine hne ((List.getElem?_inj hlt hnodup).mp ?_)
  rw [List.getElem?_map, List.getElem?_map, hr, hr', Option.map_some, Option.map_some, heq]

/-- A task has one runner. -/
theorem runner_eq {q r : Runner} (hq : q ∈ g.state.runners) (hr : r ∈ g.state.runners)
    (hid : q.job.id = r.job.id) : q = r := by
  obtain ⟨k, hk⟩ := List.mem_iff_getElem?.mp hq
  obtain ⟨i, hi⟩ := List.mem_iff_getElem?.mp hr
  by_cases hki : k = i
  · subst hki
    exact Option.some.inj (hk.symm.trans hi)
  · exact absurd hid (h.job_ne hi hk hki)

/-- After a turn of a runner the others are the runners of other tasks. -/
theorem mem_set_cases {i : Nat} {q r r' : Runner} (hr : g.state.runners[i]? = some r)
    (hq : q ∈ g.state.runners.set i r') :
    q = r' ∨ q ∈ g.state.runners ∧ q.job.id ≠ r.job.id := by
  obtain ⟨k, hk⟩ := List.mem_iff_getElem?.mp hq
  by_cases hki : k = i
  · subst hki
    rw [List.getElem?_set_self (List.getElem?_eq_some_iff.mp hr).1] at hk
    exact Or.inl (Option.some.inj hk).symm
  · rw [List.getElem?_set_ne (Ne.symm hki)] at hk
    exact Or.inr ⟨List.mem_of_getElem? hk, h.job_ne hr hk hki⟩

/-- A turn of a runner keeps everything in order. -/
theorem turn {i : Nat} {r r' : Runner} {s' : Shared σ} {note : Option Note}
    (hr : g.state.runners[i]? = some r)
    (hturn : r.IsTurn S.batchSize ((g.ledger r.job.id).enter? note) g.state.shared s' r') :
    IsSound S ⟨{ g.state with shared := s', runners := g.state.runners.set i r' },
      enterNote g.ledger (note.map (r.job.id, ·))⟩ := by
  have hsame := runnerJobs_set hr hturn.job
  have hjobs : State.jobs { g.state with shared := s', runners := g.state.runners.set i r' }
      = g.state.jobs := by
    simp only [State.jobs, Shared.jobs, hturn.queue, hsame]
  have hown := enterNote_self g.ledger r.job.id note
  have hother : ∀ j, j ≠ r.job.id →
      enterNote g.ledger (note.map (r.job.id, ·)) j = g.ledger j :=
    fun _ => enterNote_of_ne g.ledger note
  have howned : ∀ {j}, j ≠ r.job.id → some r.job.id ≠ some j :=
    fun hj heq => hj (Option.some.inj heq).symm
  obtain ⟨b, hb, htells, horder⟩ := hturn.own
  exact {
    ids := by
      show s'.registry.ids = issuedIds s'.issued
      rw [hturn.records.ids, hturn.issued, h.ids]
    nodup := by
      rw [hjobs]
      exact h.nodup
    known := by
      intro j hj
      rw [hjobs] at hj
      show j ∈ s'.registry.ids
      rw [hturn.records.ids]
      exact h.known j hj
    tells := by
      intro j c (hc : s'.registry.record? j = some c)
      by_cases hj : j = r.job.id
      · subst hj
        cases hb.symm.trans hc
        show Ledger.Tells (enterNote _ _ _) _
        rw [hown]
        exact htells
      · obtain ⟨a, ha, hac⟩ := hturn.records.back (howned hj) hc
        show Ledger.Tells (enterNote _ _ _) _
        rw [hother j hj]
        exact (h.tells j a ha).handled hac
    running := by
      intro q hq
      show ∃ a, s'.registry.record? q.job.id = some a ∧
        q.IsInOrder S.batchSize (enterNote g.ledger (note.map (r.job.id, ·)) q.job.id) a
      rcases h.mem_set_cases hr hq with rfl | ⟨hold, hne⟩
      · rw [hturn.job, hown]
        exact ⟨b, hb, horder⟩
      · obtain ⟨a, ha, hq⟩ := h.running q hold
        obtain ⟨c, hc, hac⟩ := hturn.records.record _ a (howned hne) ha
        rw [hother _ hne]
        exact ⟨c, hc, hq.handled hac⟩
    unstarted := by
      intro j hj
      rw [hsame] at hj
      have hne : j ≠ r.job.id := fun heq => hj (heq ▸ mem_runnerJobs (List.mem_of_getElem? hr))
      obtain ⟨hempty, hunstarted⟩ := h.unstarted j hj
      refine ⟨(hother j hne).trans hempty, fun c hc => ?_⟩
      obtain ⟨a, ha, hac⟩ := hturn.records.back (howned hne) hc
      exact hac.isUnstarted (hunstarted a ha) }

/-! ### Acts -/

/-- A request has no job yet. -/
theorem request (r : Request) : IsSound S { g with state := g.state.request r } := by
  have hcall : r.call.jobs = 0 := by
    cases r <;> rfl
  have hjobs : (g.state.request r).jobs = g.state.jobs := by
    simp only [State.jobs, State.request, List.map_append, List.sum_append, List.map_cons,
      List.map_nil, List.sum_singleton, hcall, add_zero]
  exact h.handle rfl rfl (.refl _) hjobs.le

theorem letGo (source : String) : IsSound S { g with state := g.state.letGo source } :=
  h.handle rfl rfl (.refl _) (le_refl _)

theorem isIdle_call {i : Nat} {call : Call} (hcall : g.state.calls[i]? = some call) :
    g.state.shared.IsIdle call.jobs := by
  have hle : call.jobs ≤ (g.state.calls.map Call.jobs).sum :=
    List.le_sum_of_mem (List.mem_map_of_mem (List.mem_of_getElem? hcall))
  exact h.isIdle (add_le_add_left (hle.trans (Multiset.le_add_left _ _)) _)

theorem isIdle_dispatcher : g.state.shared.IsIdle g.state.dispatcher.jobs :=
  h.isIdle (add_le_add_left ((Multiset.le_add_left _ _).trans (Multiset.le_add_right _ _)) _)

theorem move_call {i : Nat} {t : State σ} (hstep : g.state.step? S (.call i) = some t) :
    IsSound S ⟨t, g.ledger⟩ := by
  obtain ⟨call, call', shared, hcall, hmove, rfl⟩ := State.step?_call hstep
  have hsum := sum_map_set Call.jobs call' hcall
  refine h.serve rfl (Call.serves (h.isIdle_call hcall) hmove) fun new hle => ?_
  have hrest := add_le_add_left hle
    (g.state.dispatcher.jobs + (g.state.calls.map Call.jobs).sum + runnerJobs g.state.runners)
  rw [← add_le_add_iff_right call.jobs]
  calc State.jobs { g.state with shared := shared, calls := g.state.calls.set i call' } + call.jobs
      = shared.jobs + g.state.dispatcher.jobs + runnerJobs g.state.runners
          + (((g.state.calls.set i call').map Call.jobs).sum + call.jobs) := by
        simp only [State.jobs]
        abel
    _ = shared.jobs + call'.jobs + (g.state.dispatcher.jobs
          + (g.state.calls.map Call.jobs).sum + runnerJobs g.state.runners) := by
        rw [hsum]
        abel
    _ ≤ _ := hrest
    _ = g.state.jobs + new + call.jobs := by
        simp only [State.jobs]
        abel

theorem move_dispatcher {t : State σ} (hstep : g.state.step? S .dispatcher = some t) :
    IsSound S ⟨t, g.ledger⟩ := by
  obtain ⟨dispatcher, shared, started, turn, rfl⟩ := State.step?_dispatcher hstep
  rcases turn.started_cases with rfl | ⟨job, hjob, rfl, rfl, rfl⟩
  · have hserves := turn.serves h.isIdle_dispatcher
    refine h.serve (List.append_nil _) hserves fun new hle => ?_
    have hrest := add_le_add_left hle
      ((g.state.calls.map Call.jobs).sum + runnerJobs g.state.runners)
    calc State.jobs { g.state with
            shared := shared, dispatcher := dispatcher, runners := g.state.runners ++ [] }
        = shared.jobs + (dispatcher.jobs + runnerJobs [])
            + ((g.state.calls.map Call.jobs).sum + runnerJobs g.state.runners) := by
          simp only [State.jobs, runnerJobs_append]
          abel
      _ ≤ _ := hrest
      _ = g.state.jobs + new := by
          simp only [State.jobs]
          abel
  · exact h.spawn S.now hjob

theorem move_runner {i : Nat} {t : State σ} (hstep : g.state.step? S (.runner i) = some t) :
    IsSound S ⟨t, enterNote g.ledger (g.state.note? (.runner i))⟩ := by
  obtain ⟨r, r', shared, hr, hmove, rfl⟩ := State.step?_runner hstep
  obtain ⟨a, ha, horder⟩ := h.running r (List.mem_of_getElem? hr)
  have hnote : g.state.note? (.runner i) = r.note?.map (r.job.id, ·) := by
    rw [State.note?, hr, Option.bind_some]
  rw [hnote]
  exact h.turn hr (horder.runner ha (h.tells _ a ha) hmove)

theorem move_worker {i k : Nat} {t : State σ} (hstep : g.state.step? S (.worker i k) = some t) :
    IsSound S ⟨t, enterNote g.ledger (g.state.note? (.worker i k))⟩ := by
  obtain ⟨r, r', w, w', shared, hr, hw, hmove, rfl⟩ := State.step?_worker hstep
  obtain ⟨a, ha, horder⟩ := h.running r (List.mem_of_getElem? hr)
  have hnote : g.state.note? (.worker i k) = (w.note? r).map (r.job.id, ·) := by
    rw [State.note?, hr, Option.bind_some, hw, Option.bind_some]
  rw [hnote]
  exact h.turn hr (horder.worker_turn ha (h.tells _ a ha) hw hmove)

theorem move (m : Move) {t : State σ} (hstep : g.state.step? S m = some t) :
    IsSound S ⟨t, enterNote g.ledger (g.state.note? m)⟩ := by
  cases m with
  | call i => exact h.move_call hstep
  | dispatcher => exact h.move_dispatcher hstep
  | runner i => exact h.move_runner hstep
  | worker i k => exact h.move_worker hstep

theorem act (a : Act) : (g.act S a).IsSound S := by
  cases a with
  | request r => exact h.request r
  | letGo source => exact h.letGo source
  | move m =>
    rw [Log.act]
    split
    · exact h.move m ‹_›
    · exact h

/-- Ids are only given out. -/
theorem issued_le_act (a : Act) : g.state.shared.issued ≤ (g.act S a).state.shared.issued := by
  cases a with
  | request r | letGo source => exact le_refl _
  | move m =>
    rw [Log.act]
    split
    · rename_i t hstep
      cases m with
      | call i =>
        obtain ⟨call, call', shared, hcall, hmove, rfl⟩ := State.step?_call hstep
        exact (Call.serves (h.isIdle_call hcall) hmove).issued_le
      | dispatcher =>
        obtain ⟨dispatcher, shared, started, turn, rfl⟩ := State.step?_dispatcher hstep
        exact (turn.serves h.isIdle_dispatcher).issued_le
      | runner i =>
        obtain ⟨r, r', shared, hr, hmove, rfl⟩ := State.step?_runner hstep
        obtain ⟨a, ha, horder⟩ := h.running r (List.mem_of_getElem? hr)
        exact (horder.runner ha (h.tells _ a ha) hmove).issued.ge
      | worker i k =>
        obtain ⟨r, r', w, w', shared, hr, hw, hmove, rfl⟩ := State.step?_worker hstep
        exact (Worker.step?_frame hmove).2.2.1.ge
    · exact le_refl _

/-- Everything stays in order, and no task loses its record. -/
theorem run (acts : List Act) :
    (g.run S acts).IsSound S ∧ g.state.shared.issued ≤ (g.run S acts).state.shared.issued :=
  Log.run_induction
    (P := fun g' => g'.IsSound S ∧ g.state.shared.issued ≤ g'.state.shared.issued)
    (fun _ a hg => ⟨hg.1.act a, hg.2.trans (hg.1.issued_le_act a)⟩) ⟨h, le_refl _⟩ acts

end Log.IsSound

/-! ### Progress -/

/-- What a task tells about its progress is what has happened to its files. -/
structure Ledger.Accounts (batchSize : Nat) (l : Ledger) (t : Task) : Prop where
  filesFailed_le : t.filesFailed ≤ t.filesProcessed
  filesProcessed_le : t.filesProcessed ≤ t.totalFiles
  totalFiles : t.totalFiles = l.files.length
  /-- The numbers are those of the outcomes that were recorded. -/
  filesProcessed : t.filesProcessed = l.recorded.countP fun o => !o.isSkipped
  filesFailed : t.filesFailed = l.recorded.countP (·.isFailed)
  chunksEmitted : t.chunksEmitted = (l.recorded.map (·.chunks)).sum
  triplesEmitted : t.triplesEmitted = (l.recorded.map (·.triples)).sum
  /-- Only what was reported finished is recorded, in the order of the reports. -/
  recorded : l.recorded <+: l.finished
  /-- Files are taken in the order in which they were listed, each at most once. -/
  received : l.received <+: l.files
  /-- A file that was taken is processed at most once and reported at most once. -/
  processed : l.processed.Subperm l.received
  finished : (l.finished.map (·.path)).Subperm (l.received.map (·.path))
  /-- When a file behind the first `b` batches was taken, all files of these are recorded. -/
  barrier : ∀ b, b * batchSize < l.received.length →
    ((l.files.take (b * batchSize)).map (·.path)).Subperm (l.recorded.map (·.path))
  /-- A completed task has processed every file and skipped none. -/
  completed : t.status = .completed →
    t.filesProcessed = t.totalFiles ∧ ∀ o ∈ l.finished, o.isSkipped = false

variable {batchSize : Nat} {l : Ledger} {t : Task} {cancelled : Bool} {r : Runner}

theorem Ledger.Tells.accounts (h : l.Tells t) (hbalance : r.Balances batchSize l cancelled) :
    l.Accounts batchSize t := by
  have htally := h.tally
  rw [Task.tally, Tally.ofOutcomes, Tally.mk.injEq] at htally
  obtain ⟨hprocessed, hfailed, hchunks, htriples⟩ := htally
  have hlength := hbalance.length_recorded_le
  exact {
    filesFailed_le := by
      rw [hprocessed, hfailed]
      refine List.countP_mono_left fun o _ ho => ?_
      cases o <;> first | rfl | cases ho
    filesProcessed_le := by
      rw [hprocessed, h.totalFiles]
      exact List.countP_le_length.trans hlength
    totalFiles := h.totalFiles
    filesProcessed := hprocessed
    filesFailed := hfailed
    chunksEmitted := hchunks
    triplesEmitted := htriples
    recorded := hbalance.recorded_prefix_finished
    received := (List.prefix_append _ _).trans hbalance.fed
    processed := Multiset.coe_le.mp ((Multiset.le_add_right _ _).trans hbalance.processed)
    finished := Multiset.coe_le.mp ((Multiset.le_add_left _ _).trans hbalance.held.ge)
    barrier := fun b hb => Multiset.coe_le.mp (hbalance.barrier b hb)
    completed := by
      intro hcompleted
      obtain ⟨hall, hnone⟩ := h.completed hcompleted
      refine ⟨?_, hnone⟩
      rw [hprocessed, h.totalFiles, ← hall, List.countP_eq_length]
      intro o ho
      rw [hnone o (hbalance.recorded_prefix_finished.subset ho)]
      rfl }

/-- In every state that the scheduler can get into, every task tells exactly what has happened to
its files, and however it goes on, the number of files that it has processed never falls. -/
theorem progress_exact (S : Setting σ) (store : σ) (held : List String) (acts later : List Act) :
    let g := (Log.start S store held).run S acts
    ∀ a ∈ g.state.shared.registry.records,
      (g.ledger a.id).Accounts S.batchSize a.task ∧
      ∃ b ∈ (g.run S later).state.shared.registry.records,
        b.id = a.id ∧ a.task.filesProcessed ≤ b.task.filesProcessed := by
  intro g a ha
  have hsound : g.IsSound S := ((Log.isSound_start store held).run acts).1
  obtain ⟨hlater, hissued⟩ := hsound.run later
  have hrecord := TaskRegistry.record?_of_mem hsound.nodup_ids ha
  have htells := hsound.tells a.id a hrecord
  constructor
  · by_cases hrun : a.id ∈ runnerJobs g.state.runners
    · obtain ⟨r, hr, hid⟩ := List.mem_map.mp hrun
      obtain ⟨_, _, horder⟩ := hsound.running r hr
      rw [← hid] at htells ⊢
      exact htells.accounts horder.balance
    · rw [(hsound.unstarted a.id hrun).1] at htells ⊢
      -- It has as much to account for as a runner that has done nothing yet.
      have hbalance : (Runner.ofJob ⟨a.id, a.task.source, a.task.branch⟩ S.now).Balances
          S.batchSize .empty a.cancelled := Runner.balances_ofJob _ _
      exact htells.accounts hbalance
  · have hmem : a.id ∈ (g.run S later).state.shared.registry.ids := by
      rw [hlater.ids]
      refine issuedIds_subset hissued ?_
      rw [← hsound.ids]
      exact TaskRegistry.mem_ids_of_record? hrecord
    obtain ⟨b, hb⟩ := TaskRegistry.exists_record? hmem
    refine ⟨b, List.mem_of_find?_eq_some hb, TaskRegistry.id_of_record? hb, ?_⟩
    -- The numbers are those of the ledgers, which only grow.
    have hnow := congrArg Tally.filesProcessed htells.tally
    have hthen := congrArg Tally.filesProcessed (hlater.tells a.id b hb).tally
    have hgrow := Log.recorded_prefix_run (S := S) g later a.id
    calc a.task.filesProcessed
        = (g.ledger a.id).recorded.countP fun o => !o.isSkipped := hnow
      _ ≤ ((g.run S later).ledger a.id).recorded.countP fun o => !o.isSkipped :=
          hgrow.sublist.countP_le
      _ = b.task.filesProcessed := hthen.symm

/-- Three files that cannot be read, in batches of two: they are processed, and the task
completes. -/
example :
    let S : Setting Store.Memory :=
      { limits := { batchSize := 2, fileWorkers := 2 }
        processor := ⟨⟨[]⟩, .empty, .ofNats 1 1, Store.Memory.api⟩
        enumerate := fun _ _ => .ok ⟨"/r", none, none, [⟨"a", .error .notFound⟩,
          ⟨"b", .error .notFound⟩, ⟨"c", .error .notFound⟩]⟩
        now := .epoch }
    let turns := [.call 0, .dispatcher, .worker 0 0, .worker 0 1, .runner 0]
    let acts := .request (.submit "s" none) :: (List.replicate 40 (turns.map Act.move)).flatten
    ((Log.start S .empty []).run S acts).state.shared.registry.records.map
      (fun a => (a.task.status, a.task.filesProcessed, a.task.filesFailed, a.task.totalFiles))
        = [(.completed, 3, 3, 3)] := by
  decide +kernel

end CodeIndex.Scheduler
