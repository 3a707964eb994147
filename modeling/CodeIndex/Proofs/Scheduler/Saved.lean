import CodeIndex.Proofs.Ingest.Entries
import CodeIndex.Proofs.Scheduler.Listing
import CodeIndex.Proofs.Scheduler.Sources
/-!
# What was processed is stored

What a task has processed so far decides what the store holds and which outcomes there are, in the
hands of workers and in reports (`Runner.HasSaved`). A worker keeps this when it processes a file
because the file shares no identity with what is stored (`Ingest.process_holding`); everything else
leaves both sides alone. As long as no second task is submitted nobody else writes to the store, so
this holds whatever happens (`Log.hasSaved_run`).
-/

namespace CodeIndex.Scheduler

open CodeIndex.Ingest (Outcome entries outcome outcomes)
open CodeIndex.Store (Entry Kind)

/-! ### Outcomes that are on their way -/

/-- The outcomes of files that were processed. -/
def processedOf (os : List Outcome) : Multiset Outcome :=
  (os.filter fun o => !o.isSkipped : List Outcome)

theorem processedOf_append (os os' : List Outcome) :
    processedOf (os ++ os') = processedOf os + processedOf os' := by
  rw [processedOf, List.filter_append, ← Multiset.coe_add]
  rfl

theorem isSkipped_outcome {σ : Type} (p : Ingest.Processor σ) (ctx : Ingest.Context)
    (file : Source.File) : (outcome p ctx file).isSkipped = false := by
  rw [outcome]
  cases file.content <;> rfl

/-- The outcome that a worker is about to report. -/
def Worker.unreported (w : Worker) : Multiset Outcome :=
  match w.stage with
  | .report outcome => processedOf [outcome]
  | .idle | .check _ | .begin _ | .process _ | .ended => 0

variable {kind : Kind} {S : Setting kind.State} {s s' : Shared kind.State}

/-! ### What was processed is stored -/

/-- The store holds what was processed, and the outcomes are those of what was processed. -/
structure Runner.HasSaved (S : Setting kind.State) (l : Ledger) (store : kind.State)
    (r : Runner) : Prop where
  parsers : ∀ w ∈ r.workers, w.parsers.IsFaithful S.processor.languages
  store : store = kind.holding (entries S.processor r.context l.processed)
  ended : (outcomes S.processor r.context l.processed : Multiset Outcome)
    = processedOf l.finished + (r.workers.map Worker.unreported).sum

namespace Runner.HasSaved

variable {l l' : Ledger} {store : kind.State} {r r' : Runner} {k : Nat} {w w' : Worker}

/-- Before anything is processed the store is empty. -/
theorem of_empty (hprocessed : l.processed = []) (hfinished : l.finished = [])
    (hstore : store = kind.empty) (hfresh : ∀ w ∈ r.workers, w = .fresh) :
    r.HasSaved S l store where
  parsers := by
    intro w hw
    rw [hfresh w hw]
    exact Ingest.ParserCache.isFaithful_nil _
  store := by
    rw [hprocessed, hstore]
    exact kind.holding_nil.symm
  ended := by
    have hsum : (r.workers.map Worker.unreported).sum = 0 := by
      refine List.sum_eq_zero fun outcomes houtcomes => ?_
      obtain ⟨w, hw, rfl⟩ := List.mem_map.mp houtcomes
      rw [hfresh w hw]
      rfl
    rw [hprocessed, hfinished, hsum]
    rfl

/-- A runner that is not listing files leaves everything as it is. -/
theorem move (h : r.HasSaved S l store) (hprocessed : l'.processed = l.processed)
    (hfinished : l'.finished = l.finished) (hcontext : r'.context = r.context)
    (hworkers : r'.workers = r.workers) : r'.HasSaved S l' store where
  parsers := by
    rw [hworkers]
    exact h.parsers
  store := by
    rw [hprocessed, hcontext]
    exact h.store
  ended := by
    rw [hprocessed, hfinished, hcontext, hworkers]
    exact h.ended

section Worker

variable (h : r.HasSaved S l store)
include h

theorem parsers_set (hparsers : w'.parsers.IsFaithful S.processor.languages) :
    ∀ v ∈ r.workers.set k w', v.parsers.IsFaithful S.processor.languages := by
  intro v hv
  rcases List.mem_or_eq_of_mem_set hv with hold | rfl
  · exact h.parsers v hold
  · exact hparsers

variable (hk : r.workers[k]? = some w)
include hk

/-- A worker goes on without processing or reporting a file. -/
theorem goOn (stage : Worker.Stage)
    (hunreported : Worker.unreported { w with stage := stage } = w.unreported) :
    HasSaved S l store { r with workers := r.workers.set k { w with stage := stage } } where
  parsers := h.parsers_set (h.parsers w (List.mem_of_getElem? hk))
  store := h.store
  ended := by
    have hsum := sum_map_set Worker.unreported { w with stage := stage } hk
    rw [hunreported, add_left_inj] at hsum
    show _ = _ + ((r.workers.set k { w with stage := stage }).map Worker.unreported).sum
    rw [hsum]
    exact h.ended

/-- A worker processes a file that shares no identity with what was processed. -/
theorem process {file : Source.File} {d : Ingest.Desk kind.State} (hd : d.store = store)
    (hstore : S.processor.store = kind.api) (hstage : w.stage = .process file)
    (hapart : Entry.AreApart (entries S.processor r.context (l.processed ++ [file])))
    {result : Outcome × Ingest.ParserCache × Ingest.Desk kind.State}
    (hresult : Ingest.process S.processor r.context file w.parsers d = result) :
    HasSaved S (l.enter (.processed file)) result.2.2.store
      { r with workers := r.workers.set k ⟨.report result.1, result.2.1⟩ } := by
  have hparsers := h.parsers w (List.mem_of_getElem? hk)
  obtain ⟨houtcome, hfaithful, hholding⟩ :=
    Ingest.process_holding hstore r.context hapart hparsers (hd.trans h.store)
  rw [hresult] at houtcome hfaithful hholding
  refine ⟨h.parsers_set hfaithful, hholding, ?_⟩
  have hsum := sum_map_set Worker.unreported ⟨.report result.1, result.2.1⟩ hk
  have hnothing : w.unreported = 0 := by rw [Worker.unreported, hstage]
  have hone : Worker.unreported ⟨.report result.1, result.2.1⟩
      = {outcome S.processor r.context file} := by
    show processedOf [result.1] = _
    rw [houtcome, processedOf, List.filter_singleton, isSkipped_outcome]
    rfl
  rw [hnothing, add_zero, hone] at hsum
  show ((outcomes S.processor r.context (l.processed ++ [file]) : List Outcome) : Multiset Outcome)
    = processedOf l.finished + _
  rw [hsum, outcomes, List.map_append, ← Multiset.coe_add, ← outcomes, h.ended, add_assoc]
  rfl

/-- A worker reports a file finished. -/
theorem report {o : Outcome} (hstage : w.stage = .report o) {reports : List Report} :
    HasSaved S (l.enter (.finished o)) store
      { r with reports := reports, workers := r.workers.set k { w with stage := .idle } } where
  parsers := h.parsers_set (h.parsers w (List.mem_of_getElem? hk))
  store := h.store
  ended := by
    have hsum := sum_map_set Worker.unreported { w with stage := .idle } hk
    have hone : w.unreported = processedOf [o] := by rw [Worker.unreported, hstage]
    have hnothing : Worker.unreported { w with stage := .idle } = 0 := rfl
    rw [hnothing, add_zero, hone] at hsum
    show _ = processedOf (l.finished ++ [o])
      + ((r.workers.set k { w with stage := .idle }).map Worker.unreported).sum
    rw [processedOf_append, add_assoc, add_comm (processedOf [o]), hsum]
    exact h.ended

/-- A turn of a worker. -/
theorem worker (hstore : S.processor.store = kind.api)
    (hapart : ∀ file, w.stage = .process file →
      Entry.AreApart (entries S.processor r.context (l.processed ++ [file])))
    (hs : s.desk.store = store) (hstep : w.step? S s r = some (s', r', w')) :
    HasSaved S (l.enter? (w.note? r)) s'.desk.store
      { r' with workers := r'.workers.set k w' } := by
  subst hs
  obtain ⟨stage, parsers⟩ := w
  cases stage with
  | idle =>
    simp only [Worker.step?] at hstep
    split at hstep
    · rename_i file files hfiles
      cases hstep
      have hnote : Worker.note? r ⟨.idle, parsers⟩ = some (.received file) := by
        simp only [Worker.note?, hfiles, List.head?_cons, Option.map_some]
      rw [hnote]
      exact (h.goOn hk (.check file) rfl).move rfl rfl rfl rfl
    · rename_i hfiles
      split at hstep <;> cases hstep
      have hnote : Worker.note? r ⟨.idle, parsers⟩ = none := by
        simp only [Worker.note?, hfiles, List.head?_nil, Option.map_none]
      rw [hnote]
      exact h.goOn hk _ rfl
  | check file =>
    cases hstep
    -- That a file is skipped is no outcome of processing it.
    cases s.registry.isCancelled r.job.id <;> exact h.goOn hk _ rfl
  | begin file =>
    cases hstep
    exact (h.goOn hk (.process file) rfl).move rfl rfl rfl rfl
  | process file =>
    simp only [Worker.step?, Option.some.injEq, Prod.mk.injEq] at hstep
    obtain ⟨rfl, rfl, rfl⟩ := hstep
    exact h.process hk rfl hstore rfl (hapart file rfl) rfl
  | report o =>
    cases hstep
    exact h.report hk rfl
  | ended => cases hstep

end Worker

/-- A turn of the runner. When it lists the files, none was processed yet. -/
theorem runner {batchSize : Nat} {a : TaskRecord} (h : r.HasSaved S l store)
    (hplace : r.IsPlaced batchSize l a) (hstep : r.step? S s = some (s', r')) :
    r'.HasSaved S (l.enter? r.note?) store := by
  obtain ⟨hprocessed, hfinished, _⟩ := Runner.enter?_note l r
  rcases Runner.step?_context hstep with ⟨snapshot, hstage, rfl⟩ | ⟨hcontext, hworkers, _⟩
  · rw [IsPlaced, hstage] at hplace
    obtain ⟨_, rfl, _⟩ := hplace
    have hstore := h.store.trans kind.holding_nil
    exact of_empty hprocessed hfinished hstore fun w => List.eq_of_mem_replicate
  · exact h.move hprocessed hfinished hcontext hworkers

end Runner.HasSaved

/-! ### One task -/

/-- Whatever the source of the job lists, what is saved for its files shares no identity. -/
def Setting.IsApart (S : Setting kind.State) (job : Job) : Prop :=
  ∀ snapshot, S.enumerate job.source job.branch = .ok snapshot →
    Entry.AreApart (entries S.processor (S.contextOf job.id snapshot) snapshot.files)

/-- Some of the files of a task are no less apart. -/
theorem areApart_entries_of_subperm {σ : Type} {p : Ingest.Processor σ} {ctx : Ingest.Context}
    {files files' : List Source.File} (h : Entry.AreApart (entries p ctx files))
    (hsub : files'.Subperm files) : Entry.AreApart (entries p ctx files') := by
  obtain ⟨mid, hperm, hmid⟩ := hsub
  exact (h.sublist (hmid.filterMap _)).perm (hperm.filterMap _).symm

/-- What was processed, and a file in the hands of a worker, are files that were listed. -/
theorem Runner.Balances.processing {batchSize : Nat} {l : Ledger} {cancelled : Bool} {r : Runner}
    (h : r.Balances batchSize l cancelled) {w : Worker} (hw : w ∈ r.workers) {file : Source.File}
    (hstage : w.stage = .process file) : (l.processed ++ [file]).Subperm l.files := by
  have hreceived : (l.processed ++ [file]).Subperm l.received := by
    have hle := List.le_sum_of_mem (List.mem_map_of_mem (f := Worker.unprocessed) hw)
    have hone : w.unprocessed = {file} := by rw [Worker.unprocessed, hstage]
    rw [hone] at hle
    refine Multiset.coe_le.mp ?_
    rw [← Multiset.coe_add]
    exact (add_le_add_right hle _).trans h.processed
  exact hreceived.trans ((List.prefix_append _ _).trans h.fed).sublist.subperm

/-- A file that is being processed shares no identity with what was processed. -/
theorem Runner.Lists.areApart_processing {l : Ledger} {r : Runner} (h : r.Lists S l s)
    (happart : S.IsApart r.job) {batchSize : Nat} {cancelled : Bool}
    (hbalance : r.Balances batchSize l cancelled) {w : Worker} (hw : w ∈ r.workers)
    {file : Source.File} (hstage : w.stage = .process file) :
    Entry.AreApart (entries S.processor r.context (l.processed ++ [file])) := by
  rcases h with ⟨hunlisted, -⟩ | ⟨snapshot, hlisted⟩
  · rw [hunlisted.workers] at hw
    cases hw
  · rw [hlisted.context]
    refine areApart_entries_of_subperm (happart snapshot hlisted.found) ?_
    rw [← hlisted.files]
    exact hbalance.processing hw hstage

/-- There are no more runners than tasks. -/
theorem Log.IsSound.length_runners_le {σ : Type} {S : Setting σ} {g : Log σ} (h : g.IsSound S) :
    g.state.runners.length ≤ g.state.shared.issued := by
  have hnodup : (runnerJobs g.state.runners).Nodup :=
    Multiset.nodup_of_le (runnerJobs_le _) h.nodup
  have hsub : (g.state.runners.map fun r => r.job.id) ⊆ issuedIds g.state.shared.issued := by
    intro j hj
    rw [← h.ids]
    exact h.known j (Multiset.mem_of_le (runnerJobs_le _) hj)
  have hlength := ((Multiset.coe_nodup.mp hnodup).subperm hsub).length_le
  rwa [List.length_map, issuedIds, List.length_map, List.length_range] at hlength

/-- The store is empty while there is no runner, and otherwise the runner has saved what it has
processed. -/
structure Log.HasSaved (S : Setting kind.State) (g : Log kind.State) : Prop where
  idle : g.state.runners = [] → g.state.shared.desk.store = kind.empty
  runners : ∀ r ∈ g.state.runners, S.IsApart r.job →
    r.HasSaved S (g.ledger r.job.id) g.state.shared.desk.store

namespace Log.HasSaved

variable {g : Log kind.State} (h : g.HasSaved S) (hsound : g.IsSound S)
include h hsound

/-- The runner of the only task is started. -/
theorem spawn {job : Job} (hnone : g.state.runners = []) :
    HasSaved S ⟨{ g.state with
      dispatcher := .select, runners := g.state.runners ++ [.ofJob job S.now] }, g.ledger⟩ where
  idle := fun hidle => absurd hidle (List.append_ne_nil_of_right_ne_nil _ (List.cons_ne_nil _ _))
  runners := by
    intro r hr _
    rw [hnone, List.nil_append, List.mem_singleton] at hr
    subst hr
    have hempty : g.ledger job.id = .empty := by
      refine (hsound.unstarted job.id ?_).1
      rw [hnone]
      exact Multiset.notMem_zero _
    show Runner.HasSaved S (g.ledger job.id) _ _
    rw [hempty]
    exact .of_empty rfl rfl (h.idle hnone) fun w hw => absurd hw List.not_mem_nil

variable {i : Nat} {r r' : Runner} (hr : g.state.runners[i]? = some r)
include hr

omit h hsound in
/-- A runner that has taken its turn is still there. -/
theorem not_idle : g.state.runners.set i r' ≠ [] := by
  intro hnil
  rw [(List.set_eq_nil_iff _ _).mp hnil] at hr
  cases hr

theorem runner (hstep : r.step? S g.state.shared = some (s', r')) :
    HasSaved S ⟨{ g.state with shared := s', runners := g.state.runners.set i r' },
      enterNote g.ledger (r.note?.map (r.job.id, ·))⟩ where
  idle := fun hidle => absurd hidle (not_idle hr)
  runners := by
    intro q hq happart
    have hmem := List.mem_of_getElem? hr
    have hsame := (Runner.turn hstep).store
    show Runner.HasSaved S (enterNote _ _ q.job.id) s'.desk.store q
    rcases hsound.mem_set_cases hr hq with rfl | ⟨hold, hne⟩
    · have hjob := (Runner.turn hstep).job
      obtain ⟨a, _, horder⟩ := hsound.running r hmem
      rw [hjob] at happart
      rw [hjob, enterNote_self, hsame]
      exact (h.runners r hmem happart).runner horder.place hstep
    · rw [enterNote_of_ne _ _ hne, hsame]
      exact h.runners q hold happart

/-- The only runner there is has a worker take its turn. -/
theorem worker (hstore : S.processor.store = kind.api) (hlists : g.Lists S)
    (hone : g.state.runners.length ≤ 1) {k : Nat} {w w' : Worker} (hw : r.workers[k]? = some w)
    (hstep : w.step? S g.state.shared r = some (s', r', w')) :
    HasSaved S ⟨{ g.state with
      shared := s'
      runners := g.state.runners.set i { r' with workers := r'.workers.set k w' } },
      enterNote g.ledger ((w.note? r).map (r.job.id, ·))⟩ where
  idle := fun hidle => absurd hidle (not_idle hr)
  runners := by
    intro q hq happart
    have hmem := List.mem_of_getElem? hr
    rcases hsound.mem_set_cases hr hq with rfl | ⟨hold, hne⟩
    · obtain ⟨a, _, horder⟩ := hsound.running r hmem
      change S.IsApart r'.job at happart
      rw [(Worker.step?_shared hstep).2.1] at happart
      show Runner.HasSaved S (enterNote _ _ r'.job.id) s'.desk.store _
      rw [Worker.enterNote_own _ hstep]
      refine (h.runners r hmem happart).worker hw hstore (fun file => ?_) rfl hstep
      exact (hlists r hmem).areApart_processing happart horder.balance (List.mem_of_getElem? hw)
    · obtain ⟨only, honly⟩ := List.length_eq_one_iff.mp
        (le_antisymm hone (List.length_pos_of_mem hmem))
      rw [honly, List.mem_singleton] at hold hmem
      exact absurd (by rw [hold, hmem]) hne

omit hr in
theorem act (hstore : S.processor.store = kind.api) (hlists : g.Lists S) (a : Act)
    (hone : (g.act S a).state.shared.issued ≤ 1) : (g.act S a).HasSaved S := by
  have hturn := g.turn S a
  have hfew := (hsound.act a).length_runners_le.trans hone
  generalize g.act S a = g' at hturn hfew ⊢
  cases hturn with
  | aside runners store =>
    refine ⟨fun hidle => ?_, fun r hr => ?_⟩
    · rw [store, h.idle (runners.symm.trans hidle)]
    · rw [runners] at hr
      rw [store]
      exact h.runners r hr
  | starts =>
    -- There was no runner before this one, since there is only one task.
    rw [List.length_append, List.length_singleton] at hfew
    exact h.spawn hsound (List.eq_nil_of_length_eq_zero (by omega))
  | runner started moved => exact h.runner hsound started moved
  | worker started working moved =>
    rw [List.length_set] at hfew
    exact h.worker hsound started hstore hlists hfew working moved

end Log.HasSaved

/-- Whatever happens, as long as no second task is submitted, what was processed is stored. -/
theorem Log.hasSaved_run (hstore : S.processor.store = kind.api) (held : List String)
    (acts : List Act)
    (hone : ((Log.start S kind.empty held).run S acts).state.shared.issued ≤ 1) :
    ((Log.start S kind.empty held).run S acts).HasSaved S := by
  induction acts using List.reverseRecOn with
  | nil => exact ⟨fun _ => rfl, fun r hr => absurd hr List.not_mem_nil⟩
  | append_singleton acts a ih =>
    rw [run_concat] at hone ⊢
    have hsound : ((Log.start S kind.empty held).run S acts).IsSound S :=
      ((Log.isSound_start kind.empty held).run acts).1
    have hlists := Log.lists_run S kind.empty held acts
    exact (ih ((hsound.issued_le_act a).trans hone)).act hsound hstore hlists a hone

end CodeIndex.Scheduler
