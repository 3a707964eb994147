import CodeIndex.Proofs.Scheduler.Saved
import CodeIndex.Proofs.Scheduler.Sources
/-!
# What a task reports is what is stored

`stored_as_reported`: when the only task that was ever submitted has completed, the store holds
exactly the files that the task reports as taken in, with exactly as many chunks and triples as it
reports.

A task that has completed has recorded an outcome for every file and no worker has one left, so the
outcomes that were recorded are those of the files that were listed, in some order
(`Runner.HasSaved.of_isDone`). Its numbers are therefore the numbers of what was saved
(`tally_outcomes`).
-/

namespace CodeIndex

open CodeIndex.Ingest (Outcome entries saved? outcome outcomes)
open CodeIndex.Number (count64)
open CodeIndex.Store (Entry Kind)

/-! ### Numbers -/

/-- The order of outcomes does not count. -/
theorem Tally.ofOutcomes_perm {os os' : List Outcome} (h : os.Perm os') :
    ofOutcomes os = ofOutcomes os' := by
  simp only [ofOutcomes, h.countP_eq, (h.map Outcome.chunks).sum_eq, (h.map Outcome.triples).sum_eq]

section Numbers

variable {σ : Type} (p : Ingest.Processor σ) (ctx : Ingest.Context)

/-- A file fails if nothing is saved for it. -/
theorem isFailed_outcome (file : Source.File) :
    (outcome p ctx file).isFailed = (saved? p ctx file).isNone := by
  rw [outcome, saved?]
  cases file.content <;> rfl

theorem chunks_outcome (file : Source.File) :
    (outcome p ctx file).chunks = (saved? p ctx file).elim 0 (·.chunks.length) := by
  rw [outcome, saved?]
  cases file.content <;> rfl

theorem triples_outcome (file : Source.File) :
    (outcome p ctx file).triples = (saved? p ctx file).elim 0 (·.triples.length) := by
  rw [outcome, saved?]
  cases file.content <;> rfl

/-- The outcomes of some files count what is saved for them. -/
theorem tally_outcomes (files : List Source.File) :
    let t := Tally.ofOutcomes (outcomes p ctx files)
    let es := entries p ctx files
    t.filesProcessed = es.length + t.filesFailed ∧
      t.chunksEmitted = (Entry.allChunks es).length ∧
      t.triplesEmitted = (Entry.allTriples es).length := by
  simp only [Tally.ofOutcomes, outcomes, entries, Entry.allChunks, Entry.allTriples]
  induction files with
  | nil => exact ⟨rfl, rfl, rfl⟩
  | cons file files ih =>
    obtain ⟨hprocessed, hchunks, htriples⟩ := ih
    simp only [List.map_cons, List.countP_cons, List.sum_cons, Scheduler.isSkipped_outcome,
      isFailed_outcome, chunks_outcome, triples_outcome, hprocessed, hchunks, htriples]
    cases hentry : saved? p ctx file with
    | none =>
      rw [List.filterMap_cons_none hentry]
      exact ⟨Nat.add_assoc _ _ 1, Nat.zero_add _, Nat.zero_add _⟩
    | some e =>
      rw [List.filterMap_cons_some hentry]
      simp only [List.flatMap_cons, List.length_append, List.length_cons]
      exact ⟨Nat.add_right_comm _ _ 1, rfl, rfl⟩

end Numbers

/-! ### Reports -/

/-- The task reports what the store holds: these files, and nothing else. -/
structure Task.Reports {kind : Kind} (t : Task) (store : kind.State) (es : List Entry) : Prop where
  store_eq : store = kind.holding es
  /-- No two of its records share an identity. -/
  apart : Entry.AreApart es
  completed : ∀ e ∈ es, e.resource.status = .completed
  chunk_owned : ∀ c ∈ Entry.allChunks es, c.resourceId ∈ es.map (·.resource.id)
  triple_owned : ∀ t ∈ Entry.allTriples es, t.resourceId ∈ es.map (·.resource.id)
  filesFailed_le : t.filesFailed ≤ t.filesProcessed
  resources : es.length = t.filesProcessed - t.filesFailed
  chunks : (Entry.allChunks es).length = t.chunksEmitted
  triples : (Entry.allTriples es).length = t.triplesEmitted
  /-- The store itself tells the numbers that the task reports. -/
  counts : kind.counts store
    = .ok (t.filesProcessed - t.filesFailed, t.chunksEmitted, t.triplesEmitted)

/-- A task that has recorded the outcomes of the files that are stored reports what is stored. -/
theorem Task.reports_entries {kind : Kind} {p : Ingest.Processor kind.State}
    {ctx : Ingest.Context} {files : List Source.File} {t : Task} {store : kind.State}
    (hstore : store = kind.holding (entries p ctx files))
    (hapart : Entry.AreApart (entries p ctx files))
    (htally : t.tally = .ofOutcomes (outcomes p ctx files)) :
    t.Reports store (entries p ctx files) := by
  obtain ⟨hprocessed, hchunks, htriples⟩ := tally_outcomes p ctx files
  rw [← htally] at hprocessed hchunks htriples
  have hfiles : t.filesProcessed = (entries p ctx files).length + t.filesFailed := hprocessed
  have hresources : (entries p ctx files).length = t.filesProcessed - t.filesFailed := by omega
  exact {
    store_eq := hstore
    apart := hapart
    completed := by
      intro e he
      obtain ⟨file, _, hentry⟩ := List.mem_filterMap.mp he
      obtain ⟨_, _, rfl⟩ := Ingest.saved?_eq_some hentry
      rfl
    chunk_owned := by
      intro c hc
      obtain ⟨e, he, hce⟩ := List.mem_flatMap.mp hc
      rw [hapart.chunk_owner e he c hce]
      exact List.mem_map_of_mem he
    triple_owned := by
      intro t ht
      obtain ⟨e, he, hte⟩ := List.mem_flatMap.mp ht
      rw [hapart.triple_owner e he t hte]
      exact List.mem_map_of_mem he
    filesFailed_le := by omega
    resources := hresources
    chunks := hchunks.symm
    triples := htriples.symm
    counts := by
      rw [hstore, kind.counts_holding, hresources, ← hchunks, ← htriples]
      rfl }

namespace Scheduler

/-! ### Completed tasks -/

/-- The workers of a task that has completed have ended. -/
theorem Runner.IsPlaced.hasNoWorker {batchSize : Nat} {l : Ledger} {a : TaskRecord} {r : Runner}
    (h : r.IsPlaced batchSize l a) (hcompleted : a.task.status = .completed) : r.HasNoWorker := by
  intro w hw
  by_contra hlive
  obtain ⟨hprocessing, _⟩ := h.isRunning hw (Bool.eq_false_of_not_eq_true hlive)
  cases hprocessing.symm.trans hcompleted

theorem Worker.unreported_of_hasEnded {w : Worker} (h : w.hasEnded = true) : w.unreported = 0 := by
  obtain ⟨stage, parsers⟩ := w
  cases stage <;> first | rfl | cases h

/-- Once every file is recorded, all files were processed and what was recorded are their
outcomes. -/
theorem Runner.HasSaved.of_isDone {kind : Kind} {S : Setting kind.State} {l : Ledger}
    {store : kind.State} {r : Runner} (h : r.HasSaved S l store) {batchSize : Nat}
    {cancelled : Bool} (hbalance : r.Balances batchSize l cancelled) (hended : r.HasNoWorker)
    (hdone : l.IsDone) :
    l.processed.Perm l.files ∧ (outcomes S.processor r.context l.processed).Perm l.recorded := by
  obtain ⟨hall, hnone⟩ := hdone
  have hreceived : l.received <+: l.files := (List.prefix_append _ _).trans hbalance.fed
  have hrecorded : l.recorded = l.finished := by
    refine hbalance.recorded_prefix_finished.eq_of_length_le ?_
    rw [hall]
    exact hbalance.length_finished_le.trans hreceived.length_le
  have hreported : (r.workers.map Worker.unreported).sum = 0 := by
    refine List.sum_eq_zero fun outcomes houtcomes => ?_
    obtain ⟨w, hw, rfl⟩ := List.mem_map.mp houtcomes
    exact Worker.unreported_of_hasEnded (hended w hw)
  have hperm : (outcomes S.processor r.context l.processed).Perm l.recorded := by
    refine Multiset.coe_eq_coe.mp ?_
    rw [h.ended, hreported, add_zero, hrecorded, processedOf, List.filter_eq_self.mpr]
    intro o ho
    rw [hnone o ho]
    rfl
  refine ⟨?_, hperm⟩
  have hsub : l.processed.Subperm l.received :=
    Multiset.coe_le.mp ((Multiset.le_add_right _ _).trans hbalance.processed)
  refine (hsub.trans hreceived.sublist.subperm).perm_of_length_le ?_
  rw [← hall, ← hperm.length_eq, outcomes, List.length_map]

/-- A runner that has saved what it processed reports what is stored when its task completes. -/
theorem Runner.HasSaved.reports {kind : Kind} {S : Setting kind.State} {l : Ledger}
    {store : kind.State} {r : Runner} (h : r.HasSaved S l store) {batchSize : Nat} {a : TaskRecord}
    (horder : r.IsInOrder batchSize l a) (htells : l.Tells a.task)
    (hcompleted : a.task.status = .completed) {snapshot : Source.Snapshot}
    (hlisted : r.HasListed S snapshot l)
    (hapart : Entry.AreApart
      (entries S.processor (S.contextOf r.job.id snapshot) snapshot.files)) :
    ∃ es, es.Perm (entries S.processor (S.contextOf r.job.id snapshot) snapshot.files) ∧
      a.task.Reports store es := by
  obtain ⟨hprocessed, houtcomes⟩ := h.of_isDone horder.balance
    (horder.place.hasNoWorker hcompleted) (htells.completed hcompleted)
  have hstore := h.store
  rw [hlisted.files] at hprocessed
  rw [hlisted.context] at houtcomes hstore
  refine ⟨_, hprocessed.filterMap _, Task.reports_entries hstore ?_ ?_⟩
  · exact areApart_entries_of_subperm hapart hprocessed.subperm
  · rw [htells.tally, Tally.ofOutcomes_perm houtcomes]

/-- A task that has completed has a runner that has listed its files. -/
theorem Log.IsSound.exists_listed {σ : Type} {S : Setting σ} {g : Log σ} (h : g.IsSound S)
    (hlists : g.Lists S) {a : TaskRecord} (ha : g.state.shared.registry.record? a.id = some a)
    (hcompleted : a.task.status = .completed) :
    ∃ r ∈ g.state.runners, r.job.id = a.id ∧ r.IsInOrder S.batchSize (g.ledger r.job.id) a ∧
      ∃ snapshot, r.HasListed S snapshot (g.ledger r.job.id) := by
  have hrun : a.id ∈ runnerJobs g.state.runners := by
    by_contra hnot
    rcases (h.unstarted a.id hnot).2 a ha with ⟨hpending, _⟩ | hfailed
    · cases hpending.symm.trans hcompleted
    · cases hfailed.symm.trans hcompleted
  obtain ⟨r, hr, hid⟩ := List.mem_map.mp hrun
  obtain ⟨b, hb, horder⟩ := h.running r hr
  rw [← hid] at ha
  cases ha.symm.trans hb
  refine ⟨r, hr, hid, horder, ?_⟩
  rcases hlists r hr with ⟨_, hnot⟩ | hlisted
  · exact absurd hcompleted (hnot a.task (TaskRegistry.lastSeen?_of_record? ha))
  · exact hlisted

/-- What a runner listed is what the record of its task asks for. -/
theorem Runner.HasListed.found_of_asks {σ : Type} {S : Setting σ} {s : Shared σ} {l : Ledger}
    {r : Runner} {snapshot : Source.Snapshot} (h : r.HasListed S snapshot l) (hasks : s.Asks r.job)
    {a : TaskRecord} (ha : s.registry.record? r.job.id = some a) :
    S.enumerate a.task.source a.task.branch = .ok snapshot := by
  obtain ⟨t, ht, hsource, hbranch⟩ := hasks
  obtain rfl : a.task = t := Option.some.inj ((TaskRegistry.lastSeen?_of_record? ha).symm.trans ht)
  rw [hsource, hbranch]
  exact h.found

/-- **What a completed task reports is what is stored**: whatever the kind of store, the files of
the source, the batches, the number of workers and the order in which all parts take their turns,
once the only task has completed the store holds what is saved for the files that could be read,
and nothing else, and the numbers of the task are the numbers of that. -/
theorem stored_as_reported {kind : Kind} {S : Setting kind.State}
    (hstore : S.processor.store = kind.api) (held : List String) (acts : List Act) :
    let s := (State.start S.limits kind.empty held).run S acts
    s.shared.issued = 1 →
    ∀ a ∈ s.shared.registry.records, a.task.status = .completed →
      ∃ snapshot, S.enumerate a.task.source a.task.branch = .ok snapshot ∧
        let saved := entries S.processor (S.contextOf a.id snapshot) snapshot.files
        (snapshot.files.map (·.path)).Nodup →
        -- The octets of a file can be counted.
        (∀ file ∈ snapshot.files, ∀ bytes, file.content = .ok bytes → bytes.length < count64) →
        Identity.IsCollisionFree (saved.flatMap Entry.keys) →
        ∃ es, es.Perm saved ∧ a.task.Reports s.shared.desk.store es := by
  intro s hone a ha hcompleted
  have hs : ((Log.start S kind.empty held).run S acts).state = s := Log.state_run _ acts
  have hsound : ((Log.start S kind.empty held).run S acts).IsSound S :=
    ((Log.isSound_start kind.empty held).run acts).1
  have hlists := Log.lists_run S kind.empty held acts
  have hasked : s.IsAsked := State.isAsked_run S kind.empty held acts
  have hsaved := Log.hasSaved_run hstore held acts
  generalize (Log.start S kind.empty held).run S acts = g at hs hsound hlists hsaved
  clear_value s
  subst hs
  have hrecord := TaskRegistry.record?_of_mem hsound.nodup_ids ha
  obtain ⟨r, hr, hid, horder, snapshot, hlisted⟩ := hsound.exists_listed hlists hrecord hcompleted
  rw [← hid] at hrecord ⊢
  refine ⟨snapshot, hlisted.found_of_asks (hasked.runners r hr) hrecord,
    fun hpaths hsize hfree => ?_⟩
  have hapart := Ingest.areApart_entries S.processor _ hpaths hsize hfree
  have hjob : S.IsApart r.job := by
    intro other hother
    cases hlisted.found.symm.trans hother
    exact hapart
  have htells := hsound.tells r.job.id a hrecord
  exact ((hsaved hone.le).runners r hr hjob).reports horder htells hcompleted hlisted hapart

/-- Two files with one text and a third that cannot be read, in batches of two: the database holds
both texts, and each of them has its chunk and its triple. -/
theorem stored_as_reported_twins :
    let tree : Syntax.Tree :=
      ⟨"python", .python,
        #[⟨"module", none, 0, 12, 1, 1, none, false⟩,
          ⟨"function_definition", none, 0, 12, 1, 1, some 0, false⟩,
          ⟨"identifier", some "name", 4, 5, 1, 1, some 1, false⟩,
          ⟨"call", none, 9, 12, 1, 1, some 1, false⟩,
          ⟨"identifier", some "function", 9, 10, 1, 1, some 3, false⟩], by decide, _, rfl⟩
    let text := Text.octets "def f(): f()"
    let files : List Source.File :=
      [⟨"a.py", .ok text⟩, ⟨"b.py", .ok text⟩, ⟨"c.py", .error .notFound⟩]
    let S : Setting (Kind.State .database) :=
      { limits := { batchSize := 2, fileWorkers := 2 }
        processor := ⟨⟨[]⟩, .register .empty ⟨"python", ["py"], .ok fun _ => .ok tree⟩, .ofNats 1 1,
          Store.Database.api⟩
        enumerate := fun _ _ => .ok ⟨"/r", none, none, files⟩
        now := .epoch }
    let turns := [.call 0, .dispatcher, .worker 0 0, .worker 0 1, .runner 0]
    let acts := .request (.submit "s" none) :: (List.replicate 40 (turns.map Act.move)).flatten
    let s := (State.start S.limits (Kind.empty .database) []).run S acts
    (s.shared.issued, s.shared.registry.records.map fun a => (a.id, a.task.status, a.task.tally))
      = (1, [(idOf 0, .completed, ⟨3, 1, 2, 2⟩)]) ∧
    ∀ a ∈ s.shared.registry.records, ∃ es, es.length = 2 ∧ a.task.Reports s.shared.desk.store es := by
  intro tree text files S turns acts s
  have hrun : (s.shared.issued,
      s.shared.registry.records.map fun a => (a.id, a.task.status, a.task.tally))
        = (1, [(idOf 0, .completed, ⟨3, 1, 2, 2⟩)]) := by
    decide +kernel
  have hsize : ∀ file ∈ files, ∀ bytes, file.content = .ok bytes → bytes.length < count64 := by
    simp only [files, List.mem_cons, List.not_mem_nil, or_false]
    rintro _ (rfl | rfl | rfl) bytes hcontent <;> cases hcontent <;> decide +kernel
  refine ⟨hrun, fun a ha => ?_⟩
  obtain ⟨hissued, hrecords⟩ := Prod.mk.inj hrun
  have hmem := List.mem_map_of_mem (f := fun a : TaskRecord => (a.id, a.task.status, a.task.tally)) ha
  rw [hrecords, List.mem_singleton, Prod.mk.injEq, Prod.mk.injEq] at hmem
  obtain ⟨hid, hcompleted, htally⟩ := hmem
  have hstored := @stored_as_reported .database S rfl [] acts
  have hs : State.run S (State.start S.limits (Kind.empty .database) []) acts = s := rfl
  simp only [hs] at hstored
  obtain ⟨snapshot, hfound, hreports⟩ := hstored hissued a ha hcompleted
  obtain rfl := Except.ok.inj hfound
  rw [hid] at hreports
  obtain ⟨es, -, hreport⟩ := hreports (by decide) hsize (by decide +kernel)
  have hprocessed : a.task.filesProcessed = 3 := congrArg Tally.filesProcessed htally
  have hfailed : a.task.filesFailed = 1 := congrArg Tally.filesFailed htally
  refine ⟨es, ?_, hreport⟩
  rw [hreport.resources, hprocessed, hfailed]

end Scheduler

end CodeIndex
