import CodeIndex.Proofs.Keyed
import CodeIndex.Task.Registry
import Mathlib.Data.List.Nodup
/-!
# The registry, record by record

The registry changes one record at a time and never loses one: a task that is let go is only no
longer found. `record?_modify` tells what becomes of each record.

The runner of a task is the only one who counts its files. Everybody else handles records in the way
of `TaskRecord.IsHandled`: the numbers of the task stay, its cancellation may be requested, and a
task may fail before it starts and may be let go once it has ended. `TaskRegistry.IsHandled` says so
of all records but those that somebody owns.
-/

namespace CodeIndex

open CodeIndex.Keyed

/-! ### Numbers of a task -/

/-- What a task has counted. -/
structure Tally where
  filesProcessed : Nat
  filesFailed : Nat
  chunksEmitted : Nat
  triplesEmitted : Nat
  deriving DecidableEq, Repr

/-- What a task has counted so far. -/
def Task.tally (t : Task) : Tally :=
  ⟨t.filesProcessed, t.filesFailed, t.chunksEmitted, t.triplesEmitted⟩

/-- A task that does not run can only end by failing before it starts. -/
theorem TaskStatus.fails_of_canMoveTo {s t : TaskStatus} (hs : s ≠ .processing)
    (ht : t.isTerminal = true) (h : s.canMoveTo t = true) : s = .pending ∧ t = .failed := by
  revert hs ht h
  cases s <;> cases t <;> decide

/-- A task as it stands after a move to another status. -/
theorem Task.moveTo?_eq_some {t u : Task} {next : TaskStatus} {error : Option String}
    {now : Time.Timestamp} (h : t.moveTo? next error now = some u) :
    t.status.canMoveTo next = true ∧ u.id = t.id ∧ u.status = next ∧ u.tally = t.tally ∧
      u.totalFiles = t.totalFiles := by
  rw [moveTo?] at h
  split at h
  · cases h
    exact ⟨‹_›, rfl, rfl, rfl, rfl⟩
  · cases h

theorem Task.failPending?_eq_some {t u : Task} {error : String} {now : Time.Timestamp}
    (h : t.failPending? error now = some u) :
    t.status = .pending ∧ u.id = t.id ∧ u.status = .failed ∧ u.tally = t.tally ∧
      u.totalFiles = t.totalFiles := by
  rw [failPending?] at h
  split at h
  · cases h
    exact ⟨‹_›, rfl, rfl, rfl, rfl⟩
  · cases h

namespace TaskRegistry

variable {r r' : TaskRegistry} {id j k : String} {a b : TaskRecord}

/-! ### Records -/

/-- The ids of all tasks that were ever submitted. -/
def ids (r : TaskRegistry) : List String :=
  r.records.map TaskRecord.id

theorem id_of_record? (h : r.record? j = some a) : a.id = j := by
  have hfound : (a.id == j) = true := List.find?_some (p := fun b : TaskRecord => b.id == j) h
  exact beq_iff_eq.mp hfound

theorem mem_ids_of_record? (h : r.record? j = some a) : j ∈ r.ids := by
  rw [← id_of_record? h]
  exact List.mem_map_of_mem (List.mem_of_find?_eq_some h)

/-- A submitted task has a record. -/
theorem exists_record? (h : j ∈ r.ids) : ∃ a, r.record? j = some a := by
  obtain ⟨a, ha, rfl⟩ := List.mem_map.mp h
  refine Option.isSome_iff_exists.mp (List.find?_isSome.mpr ⟨a, ha, ?_⟩)
  exact beq_self_eq_true _

/-- If ids are distinct, a record is the one that is found under its id. -/
theorem record?_of_mem (hnodup : r.ids.Nodup) (h : a ∈ r.records) :
    r.record? a.id = some a := by
  obtain ⟨b, hb⟩ := exists_record? (List.mem_map_of_mem h)
  have hmem : b ∈ r.records := List.mem_of_find?_eq_some hb
  rw [hb, List.inj_on_of_nodup_map hnodup hmem h (id_of_record? hb)]

theorem get?_eq_some {t : Task} (h : r.get? j = some t) :
    ∃ a, r.record? j = some a ∧ a.retained = true ∧ a.task = t := by
  rw [get?, Option.map_eq_some_iff] at h
  obtain ⟨a, ha, ht⟩ := h
  rw [Option.filter_eq_some_iff] at ha
  exact ⟨a, ha.1, ha.2, ht⟩

theorem get?_of_record? (h : r.record? j = some a) (hretained : a.retained = true) :
    r.get? j = some a.task := by
  rw [get?, h, Option.filter_some_pos hretained, Option.map_some]

theorem isCancelled_of_record? (h : r.record? j = some a) : r.isCancelled j = a.cancelled := by
  rw [isCancelled, isCancelled?, h, Option.map_some, Option.getD_some]

/-! ### Modifying -/

section Modify

variable {f : TaskRecord → TaskRecord} (hf : ∀ a, a.id = id → (f a).id = id)
include hf

theorem id_modified (a : TaskRecord) : (if a.id = id && a.retained then f a else a).id = a.id := by
  split
  · rename_i h
    rw [Bool.and_eq_true, decide_eq_true_iff] at h
    rw [hf a h.1, h.1]
  · rfl

theorem ids_modify : (r.modify id f).ids = r.ids := by
  rw [ids, ids, modify, List.map_map]
  exact List.map_congr_left fun a _ => id_modified hf a

/-- Only a retained record of the id is modified. -/
theorem record?_modify (j : String) :
    (r.modify id f).record? j
      = (r.record? j).map fun a => if a.id = id && a.retained then f a else a := by
  have hkey : ∀ a : TaskRecord, (TaskRecord.id (if a.id = id && a.retained then f a else a) == j)
      = (a.id == j) := fun a => by rw [id_modified hf]
  simp only [record?, lookUp, modify, List.find?_map, Function.comp_def, hkey]

theorem record?_modify_self (h : r.record? id = some a) (hretained : a.retained = true) :
    (r.modify id f).record? id = some (f a) := by
  rw [record?_modify hf, h, Option.map_some, if_pos]
  rw [Bool.and_eq_true, decide_eq_true_iff]
  exact ⟨id_of_record? h, hretained⟩

theorem record?_modify_of_ne (hne : j ≠ id) : (r.modify id f).record? j = r.record? j := by
  rw [record?_modify hf]
  cases h : r.record? j with
  | none => rfl
  | some a =>
    rw [Option.map_some, id_of_record? h, if_neg]
    rw [Bool.and_eq_true, decide_eq_true_iff]
    exact fun h => hne h.1

end Modify

/-- A new task is found under its id, and every other one as before. -/
theorem record?_insert (t : Task) (j : String) :
    (r.insert t).record? j = if t.id = j then some ⟨t, false, true⟩ else r.record? j :=
  lookUp_put TaskRecord.id j ⟨t, false, true⟩ r.records

theorem ids_insert {t : Task} (hnew : t.id ∉ r.ids) : (r.insert t).ids = r.ids ++ [t.id] := by
  have happend := put_of_not_mem TaskRecord.id (x := ⟨t, false, true⟩) hnew
  rw [ids, insert, happend, List.map_append]
  rfl

end TaskRegistry

/-! ### Handling -/

/-- All that anybody but its runner makes of a record. -/
structure TaskRecord.IsHandled (a b : TaskRecord) : Prop where
  tally : b.task.tally = a.task.tally
  totalFiles : b.task.totalFiles = a.task.totalFiles
  /-- A task fails before it starts. -/
  status : b.task.status = a.task.status ∨ a.task.status = .pending ∧ b.task.status = .failed
  /-- A cancellation is not taken back. -/
  cancelled : a.cancelled = true → b.cancelled = true
  /-- Only an ended task is let go. -/
  retained : a.retained = true → b.task.status.isTerminal = false → b.retained = true

theorem TaskRecord.IsHandled.refl (a : TaskRecord) : a.IsHandled a :=
  ⟨rfl, rfl, Or.inl rfl, fun h => h, fun h _ => h⟩

theorem TaskRecord.IsHandled.trans {a b c : TaskRecord} (h : a.IsHandled b) (h' : b.IsHandled c) :
    a.IsHandled c where
  tally := h'.tally.trans h.tally
  totalFiles := h'.totalFiles.trans h.totalFiles
  status := by
    rcases h'.status with heq | ⟨hpending, hfailed⟩
    · rw [heq]
      exact h.status
    · rcases h.status with heq | ⟨_, hfailed'⟩
      · exact Or.inr ⟨heq ▸ hpending, hfailed⟩
      · rw [hfailed'] at hpending
        cases hpending
  cancelled := h'.cancelled ∘ h.cancelled
  retained := by
    intro hretained hrunning
    refine h'.retained (h.retained hretained ?_) hrunning
    rcases h'.status with heq | ⟨hpending, _⟩
    · rwa [heq] at hrunning
    · rw [hpending]
      rfl

/-- The task waits for its runner, or it failed before it started. -/
def TaskRecord.IsUnstarted (a : TaskRecord) : Prop :=
  a.task.status = .pending ∧ a.retained = true ∨ a.task.status = .failed

/-- The task runs, and the registry finds it. -/
def TaskRecord.IsRunning (a : TaskRecord) : Prop :=
  a.task.status = .processing ∧ a.retained = true

namespace TaskRecord.IsHandled

variable {a b : TaskRecord} (h : a.IsHandled b)
include h

theorem status_eq (hstarted : a.task.status ≠ .pending) : b.task.status = a.task.status :=
  h.status.resolve_right fun hfails => hstarted hfails.1

/-- A task that runs goes on running. -/
theorem isRunning (ha : a.IsRunning) : b.IsRunning := by
  have hstatus : b.task.status = .processing := by
    rw [h.status_eq (by rw [ha.1]; decide), ha.1]
  exact ⟨hstatus, h.retained ha.2 (by rw [hstatus]; rfl)⟩

theorem isUnstarted (ha : a.IsUnstarted) : b.IsUnstarted := by
  rcases ha with ⟨hpending, hretained⟩ | hfailed
  · rcases h.status with hstatus | ⟨_, hfailed⟩
    · rw [hpending] at hstatus
      exact Or.inl ⟨hstatus, h.retained hretained (by rw [hstatus]; rfl)⟩
    · exact Or.inr hfailed
  · exact Or.inr (by rw [h.status_eq (by rw [hfailed]; decide), hfailed])

/-- A task that has ended stays as it ended. -/
theorem isTerminal (ha : a.task.status.isTerminal = true) :
    b.task.status.isTerminal = true := by
  rw [h.status_eq, ha]
  intro hpending
  rw [hpending] at ha
  cases ha

end TaskRecord.IsHandled

/-- Every task keeps its record, and all records but the one that is owned are only handled. -/
structure TaskRegistry.IsHandled (owned : Option String) (r r' : TaskRegistry) : Prop where
  ids : r'.ids = r.ids
  record : ∀ k a, owned ≠ some k → r.record? k = some a →
    ∃ b, r'.record? k = some b ∧ a.IsHandled b

namespace TaskRegistry

variable {r r' r'' : TaskRegistry} {id j : String} {owned : Option String}

namespace IsHandled

theorem refl (r : TaskRegistry) : r.IsHandled owned r :=
  ⟨rfl, fun _ a _ ha => ⟨a, ha, .refl a⟩⟩

theorem trans (h : r.IsHandled owned r') (h' : r'.IsHandled owned r'') : r.IsHandled owned r'' where
  ids := h'.ids.trans h.ids
  record := by
    intro k a hk ha
    obtain ⟨b, hb, hab⟩ := h.record k a hk ha
    obtain ⟨c, hc, hbc⟩ := h'.record k b hk hb
    exact ⟨c, hc, hab.trans hbc⟩

/-- A handled record was there before. -/
theorem back {k : String} {b : TaskRecord} (h : r.IsHandled owned r') (hk : owned ≠ some k)
    (hb : r'.record? k = some b) : ∃ a, r.record? k = some a ∧ a.IsHandled b := by
  have hmem := mem_ids_of_record? hb
  rw [h.ids] at hmem
  obtain ⟨a, ha⟩ := exists_record? hmem
  obtain ⟨b', hb', hab⟩ := h.record k a hk ha
  cases hb'.symm.trans hb
  exact ⟨a, ha, hab⟩

/-- If all records are handled, then all but one are. -/
theorem but (h : r.IsHandled none r') : r.IsHandled owned r' :=
  ⟨h.ids, fun k a _ => h.record k a nofun⟩

end IsHandled

/-- A record may be modified as long as it is handled. -/
theorem isHandled_modify {f : TaskRecord → TaskRecord} (hf : ∀ a, a.id = id → (f a).id = id)
    (h : ∀ a, r.record? id = some a → a.retained = true → a.IsHandled (f a)) :
    r.IsHandled none (r.modify id f) where
  ids := ids_modify hf
  record := by
    intro k a _ ha
    by_cases hk : k = id
    · subst hk
      by_cases hretained : a.retained = true
      · exact ⟨f a, record?_modify_self hf ha hretained, h a ha hretained⟩
      · refine ⟨a, ?_, .refl a⟩
        rw [record?_modify hf, ha, Option.map_some, if_neg]
        rw [Bool.and_eq_true]
        exact fun h => hretained h.2
    · exact ⟨a, (record?_modify_of_ne hf hk).trans ha, .refl a⟩

/-- The owner of a record may change its task. -/
theorem isHandled_update {f : Task → Task} (hf : ∀ t, t.id = id → (f t).id = id) :
    r.IsHandled (some id) (r.update id f) := by
  have hid : ∀ a : TaskRecord, a.id = id → (TaskRecord.id { a with task := f a.task }) = id :=
    fun a => hf a.task
  refine ⟨ids_modify hid, fun k a hk ha => ⟨a, ?_, .refl a⟩⟩
  exact (record?_modify_of_ne hid fun h => hk (congrArg some h.symm)).trans ha

theorem record?_update_self {f : Task → Task} {a : TaskRecord}
    (hf : ∀ t, t.id = id → (f t).id = id) (h : r.record? id = some a)
    (hretained : a.retained = true) :
    (r.update id f).record? id = some { a with task := f a.task } :=
  record?_modify_self (fun a => hf a.task) h hretained

/-! ### Changes under a condition -/

/-- Either the task of a retained record is replaced, or nothing changes. -/
theorem updateIf_cases (r : TaskRegistry) (id : String) (f : Task → Option Task) :
    (∃ a t, r.record? id = some a ∧ a.retained = true ∧ f a.task = some t ∧
      r.updateIf id f = (r.update id fun _ => t, true)) ∨
    (∀ a, r.record? id = some a → a.retained = true → f a.task = none) ∧
      r.updateIf id f = (r, false) := by
  rw [updateIf]
  cases h : (r.get? id).bind f with
  | some t =>
    obtain ⟨u, hu, hf⟩ := Option.bind_eq_some_iff.mp h
    obtain ⟨a, ha, hretained, rfl⟩ := get?_eq_some hu
    exact Or.inl ⟨a, t, ha, hretained, hf, rfl⟩
  | none =>
    refine Or.inr ⟨fun a ha hretained => ?_, rfl⟩
    rwa [get?_of_record? ha hretained, Option.bind_some] at h

section UpdateIf

variable {f : Task → Option Task} (hid : ∀ t u, f t = some u → u.id = t.id)
include hid

/-- What holds of every task that is replaced and its later form holds of the record. -/
theorem isHandled_updateIf
    (h : ∀ a t, r.record? id = some a → a.retained = true → f a.task = some t →
      a.IsHandled { a with task := t }) :
    r.IsHandled none (r.updateIf id f).1 := by
  rcases updateIf_cases r id f with ⟨a, t, ha, hretained, ht, heq⟩ | ⟨_, heq⟩
  · rw [heq]
    refine isHandled_modify (fun _ _ => (hid _ _ ht).trans (id_of_record? ha)) fun b hb _ => ?_
    cases ha.symm.trans hb
    exact h a t ha hretained ht
  · rw [heq]
    exact .refl r

end UpdateIf

/-- A task is moved if its record is retained and its status allows it. -/
theorem transition_of_record? {a : TaskRecord} (h : r.record? id = some a) (next : TaskStatus)
    (error : Option String) (now : Time.Timestamp) :
    (∃ t, a.retained = true ∧ a.task.moveTo? next error now = some t ∧
      r.transition id next error now = (r.update id fun _ => t, true)) ∨
    (a.retained = true → a.task.status.canMoveTo next = false) ∧
      r.transition id next error now = (r, false) := by
  rcases updateIf_cases r id (fun t => t.moveTo? next error now) with
    ⟨b, t, hb, hretained, ht, heq⟩ | ⟨hno, heq⟩
  · cases h.symm.trans hb
    exact Or.inl ⟨t, hretained, ht, heq⟩
  · refine Or.inr ⟨fun hretained => ?_, heq⟩
    have hnone := hno a h hretained
    rw [Task.moveTo?] at hnone
    split at hnone
    · cases hnone
    · exact Bool.not_eq_true _ ▸ ‹_›

/-- A transition of a task that is not running, to a status in which it has ended. -/
theorem isHandled_transition {next : TaskStatus} {error : Option String} {now : Time.Timestamp}
    (hnext : next.isTerminal = true)
    (h : ∀ a, r.record? id = some a → a.task.status ≠ .processing) :
    r.IsHandled none (r.transition id next error now).1 := by
  refine isHandled_updateIf (fun t u hu => (Task.moveTo?_eq_some hu).2.1)
    fun a t ha hretained ht => ?_
  obtain ⟨hmove, _, hstatus, htally, htotal⟩ := Task.moveTo?_eq_some ht
  obtain ⟨hpending, hfailed⟩ := TaskStatus.fails_of_canMoveTo (h a ha) hnext hmove
  exact ⟨htally, htotal, Or.inr ⟨hpending, hstatus.trans hfailed⟩, fun h => h, fun _ _ => hretained⟩

theorem isHandled_failPending (error : String) (now : Time.Timestamp) :
    r.IsHandled none (r.failPending id error now).1 := by
  refine isHandled_updateIf (fun t u hu => (Task.failPending?_eq_some hu).2.1)
    fun a t ha hretained ht => ?_
  obtain ⟨hpending, _, hstatus, htally, htotal⟩ := Task.failPending?_eq_some ht
  exact ⟨htally, htotal, Or.inr ⟨hpending, hstatus⟩, fun h => h, fun _ _ => hretained⟩

theorem isHandled_requestCancel {t : Task} (h : r.requestCancel id = .ok (r', t)) :
    r.IsHandled none r' := by
  rw [requestCancel] at h
  split at h
  · cases h
  · split at h
    · cases h
    · cases h
      exact isHandled_modify (fun _ ha => ha) fun a _ hretained =>
        ⟨rfl, rfl, Or.inl rfl, fun _ => rfl, fun _ _ => hretained⟩

/-! ### Letting go -/

/-- The order of the ids says nothing about the records. -/
theorem IsHandled.withOrder (h : r.IsHandled owned r') (order : List String) :
    r.IsHandled owned { r' with order := order } :=
  ⟨h.ids, h.record⟩

theorem hasEnded_of_record? {a : TaskRecord} (hended : r.hasEnded id = true)
    (h : r.record? id = some a) (hretained : a.retained = true) :
    a.task.status.isTerminal = true := by
  rwa [hasEnded, get?_of_record? h hretained, Option.all_some] at hended

/-- An ended task may be let go. -/
theorem isHandled_release (hended : r.hasEnded id = true) : r.IsHandled none (r.release id) := by
  refine isHandled_modify (fun _ ha => ha) fun a ha hretained =>
    ⟨rfl, rfl, Or.inl rfl, fun h => h, fun _ hrunning => ?_⟩
  rw [hasEnded_of_record? hended ha hretained] at hrunning
  cases hrunning

theorem isHandled_remove {t : Task} (h : r.remove id = .ok (r', t)) : r.IsHandled none r' := by
  rw [remove] at h
  split at h
  · cases h
  · rename_i u hu
    split at h
    · cases h
      refine (isHandled_release ?_).withOrder _
      rwa [hasEnded, hu, Option.all_some]
    · cases h

theorem isHandled_evictFrom (r : TaskRegistry) (excess : Nat) (order : List String) :
    r.IsHandled none (r.evictFrom excess order).1 := by
  induction order generalizing r excess with
  | nil => exact .refl r
  | cons id rest ih =>
    rw [evictFrom]
    split
    · exact .refl r
    · split
      · exact (isHandled_release ‹_›).trans (ih _ _)
      · exact ih _ _

theorem isHandled_evict (limit : Nat) : r.IsHandled none (r.evict limit).1 :=
  (isHandled_evictFrom r _ r.order).withOrder _

end TaskRegistry

end CodeIndex
