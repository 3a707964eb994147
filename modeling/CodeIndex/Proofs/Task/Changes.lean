import CodeIndex.Proofs.Task.Records
/-!
# What becomes of the tasks

Those who wait for a task see it as it was last seen (`lastSeen?`) and whether its cancellation was
requested (`isCancelled`), however its record is kept. In these terms there are only a few changes:
a task is submitted, its owner changes it, one task moves to another status (`Moves`), or all tasks
stay as they are and at most a cancellation is requested or a record let go (`Keeps`).
-/

namespace CodeIndex.TaskRegistry

variable {r r' r'' : TaskRegistry} {id j : String} {a : TaskRecord} {t : Task}

/-! ### Tasks as they were last seen -/

theorem lastSeen?_of_record? (h : r.record? j = some a) : r.lastSeen? j = some a.task := by
  rw [lastSeen?, h, Option.map_some]

theorem lastSeen?_eq_some (h : r.lastSeen? j = some t) :
    ∃ a, r.record? j = some a ∧ a.task = t :=
  Option.map_eq_some_iff.mp h

theorem id_of_lastSeen? (h : r.lastSeen? j = some t) : t.id = j := by
  obtain ⟨a, ha, rfl⟩ := lastSeen?_eq_some h
  exact id_of_record? ha

theorem lastSeen?_of_get? (h : r.get? j = some t) : r.lastSeen? j = some t := by
  obtain ⟨a, ha, _, rfl⟩ := get?_eq_some h
  exact lastSeen?_of_record? ha

theorem lastSeen?_eq_none (h : j ∉ r.ids) : r.lastSeen? j = none := by
  cases hseen : r.lastSeen? j with
  | none => rfl
  | some t =>
    obtain ⟨a, ha, _⟩ := lastSeen?_eq_some hseen
    exact absurd (mem_ids_of_record? ha) h

theorem isCancelled_eq_false (h : j ∉ r.ids) : r.isCancelled j = false := by
  cases hrecord : r.record? j with
  | none => rw [isCancelled, isCancelled?, hrecord, Option.map_none, Option.getD_none]
  | some a => exact absurd (mem_ids_of_record? hrecord) h

/-! ### All tasks stay -/

/-- All tasks stay as they are, and no cancellation is taken back. -/
structure Keeps (r r' : TaskRegistry) : Prop where
  ids : r'.ids = r.ids
  lastSeen? : ∀ j, r'.lastSeen? j = r.lastSeen? j
  isCancelled : ∀ j, r.isCancelled j = true → r'.isCancelled j = true

theorem Keeps.refl (r : TaskRegistry) : r.Keeps r :=
  ⟨rfl, fun _ => rfl, fun _ h => h⟩

theorem Keeps.trans (h : r.Keeps r') (h' : r'.Keeps r'') : r.Keeps r'' :=
  ⟨h'.ids.trans h.ids, fun j => (h'.lastSeen? j).trans (h.lastSeen? j),
    fun j => h'.isCancelled j ∘ h.isCancelled j⟩

/-- The order of the ids says nothing about the tasks. -/
theorem Keeps.withOrder (h : r.Keeps r') (order : List String) :
    r.Keeps { r' with order := order } :=
  ⟨h.ids, h.lastSeen?, h.isCancelled⟩

/-- A record may be modified in anything but its task. -/
theorem keeps_modify {f : TaskRecord → TaskRecord} (htask : ∀ a, (f a).task = a.task)
    (hcancelled : ∀ a, a.cancelled = true → (f a).cancelled = true) :
    r.Keeps (r.modify id f) := by
  have hid : ∀ a : TaskRecord, a.id = id → (f a).id = id := by
    intro a ha
    rw [TaskRecord.id, htask]
    exact ha
  have hrecord := record?_modify (r := r) hid
  refine ⟨ids_modify hid, ?_, ?_⟩
  · intro j
    rw [lastSeen?, lastSeen?, hrecord, Option.map_map]
    congr 1
    funext a
    rw [Function.comp_apply]
    split
    · exact htask a
    · rfl
  · intro j hj
    cases hold : r.record? j with
    | none =>
      rw [isCancelled, isCancelled?, hold] at hj
      cases hj
    | some a =>
      have hflag : a.cancelled = true := (isCancelled_of_record? hold).symm.trans hj
      have hnew := hrecord j
      rw [hold, Option.map_some] at hnew
      rw [isCancelled_of_record? hnew]
      split
      · exact hcancelled a hflag
      · exact hflag

theorem keeps_requestCancel (h : r.requestCancel id = .ok (r', t)) : r.Keeps r' := by
  rw [requestCancel] at h
  split at h
  · cases h
  · split at h
    · cases h
    · cases h
      exact keeps_modify (fun _ => rfl) fun _ _ => rfl

/-- What is found is not ended when its cancellation is accepted, and the request stands. -/
theorem requestCancel_eq_ok (h : r.requestCancel id = .ok (r', t)) :
    r.get? id = some t ∧ t.status.isTerminal = false ∧ r'.isCancelled id = true := by
  rw [requestCancel] at h
  split at h
  · cases h
  · rename_i u hu
    split at h
    · cases h
    · rename_i hrunning
      cases h
      obtain ⟨a, ha, hretained, -⟩ := get?_eq_some hu
      have hnew : (r.modify id fun record => { record with cancelled := true }).record? id
          = some { a with cancelled := true } :=
        record?_modify_self (fun _ hid => hid) ha hretained
      exact ⟨hu, Bool.not_eq_true _ ▸ hrunning, isCancelled_of_record? hnew⟩

theorem keeps_release : r.Keeps (r.release id) :=
  keeps_modify (fun _ => rfl) fun _ h => h

theorem keeps_remove (h : r.remove id = .ok (r', t)) : r.Keeps r' := by
  rw [remove] at h
  split at h
  · cases h
  · split at h
    · cases h
      exact keeps_release.withOrder _
    · cases h

theorem keeps_evictFrom (r : TaskRegistry) (excess : Nat) (order : List String) :
    r.Keeps (r.evictFrom excess order).1 := by
  induction order generalizing r excess with
  | nil => exact .refl r
  | cons id rest ih =>
    rw [evictFrom]
    split
    · exact .refl r
    · split
      · exact keeps_release.trans (ih _ _)
      · exact ih _ _

theorem keeps_evict (limit : Nat) : r.Keeps (r.evict limit).1 :=
  (keeps_evictFrom r _ r.order).withOrder _

/-! ### One task is changed -/

section Update

variable {f : Task → Task} (hf : ∀ t, t.id = id → (f t).id = id)
include hf

theorem lastSeen?_update_self (h : r.record? id = some a) (hretained : a.retained = true) :
    (r.update id f).lastSeen? id = some (f a.task) :=
  lastSeen?_of_record? (record?_update_self hf h hretained)

theorem lastSeen?_update_of_ne (hj : j ≠ id) : (r.update id f).lastSeen? j = r.lastSeen? j := by
  have hid : ∀ a : TaskRecord, a.id = id → (TaskRecord.id { a with task := f a.task }) = id :=
    fun a => hf a.task
  rw [lastSeen?, lastSeen?, update, record?_modify_of_ne hid hj]

theorem ids_update : (r.update id f).ids = r.ids :=
  ids_modify fun a => hf a.task

theorem isCancelled_update (j : String) : (r.update id f).isCancelled j = r.isCancelled j := by
  have hid : ∀ a : TaskRecord, a.id = id → (TaskRecord.id { a with task := f a.task }) = id :=
    fun a => hf a.task
  rw [isCancelled, isCancelled, isCancelled?, isCancelled?, update, record?_modify hid,
    Option.map_map]
  congr 2
  funext a
  rw [Function.comp_apply]
  split <;> rfl

end Update

theorem lastSeen?_insert (t : Task) (j : String) :
    (r.insert t).lastSeen? j = if t.id = j then some t else r.lastSeen? j := by
  rw [lastSeen?, record?_insert]
  split
  · rfl
  · rfl

theorem isCancelled_insert {t : Task} (hnew : t.id ∉ r.ids) (j : String) :
    (r.insert t).isCancelled j = r.isCancelled j := by
  by_cases hj : t.id = j
  · rw [← hj, isCancelled_eq_false hnew]
    have hrecord : (r.insert t).record? t.id = some ⟨t, false, true⟩ := by
      rw [record?_insert, if_pos rfl]
    exact isCancelled_of_record? hrecord
  · rw [isCancelled, isCancelled, isCancelled?, isCancelled?, record?_insert, if_neg hj]

/-- One task moves to another status, and all others stay as they are. -/
structure Moves (r r' : TaskRegistry) (id : String) (next : TaskStatus) (error : Option String) :
    Prop where
  ids : r'.ids = r.ids
  moved : ∃ t u, r.lastSeen? id = some t ∧ t.status.canMoveTo next = true ∧
    r'.lastSeen? id = some u ∧ u.status = next ∧ u.error = error.or t.error ∧
    u.source = t.source ∧ u.branch = t.branch
  others : ∀ j, j ≠ id → r'.lastSeen? j = r.lastSeen? j
  isCancelled : ∀ j, r'.isCancelled j = r.isCancelled j

/-- Either one task moves, or nothing changes. -/
theorem moves_updateIf {f : Task → Option Task} {next : TaskStatus} {error : Option String}
    {moved : Bool} (hf : ∀ t u, f t = some u → t.status.canMoveTo next = true ∧ u.id = t.id ∧
      u.status = next ∧ u.error = error.or t.error ∧ u.source = t.source ∧ u.branch = t.branch)
    (h : r.updateIf id f = (r', moved)) :
    moved = true ∧ r.Moves r' id next error ∨ moved = false ∧ r' = r := by
  rcases updateIf_cases r id f with ⟨a, u, ha, hretained, hu, heq⟩ | ⟨_, heq⟩
  · rw [heq] at h
    cases h
    obtain ⟨hcan, hid, hstatus⟩ := hf a.task u hu
    have hkey : ∀ t : Task, t.id = id → u.id = id :=
      fun _ _ => hid.trans (id_of_record? ha)
    have hself : (r.update id fun _ => u).lastSeen? id = some u :=
      lastSeen?_of_record? (record?_update_self hkey ha hretained)
    exact Or.inl ⟨rfl, ids_update hkey,
      ⟨a.task, u, lastSeen?_of_record? ha, hcan, hself, hstatus⟩,
      fun j hj => lastSeen?_update_of_ne hkey hj, fun j => isCancelled_update hkey j⟩
  · rw [heq] at h
    cases h
    exact Or.inr ⟨rfl, rfl⟩

theorem moves_transition {next : TaskStatus} {error : Option String} {now : Time.Timestamp}
    {moved : Bool} (h : r.transition id next error now = (r', moved)) :
    moved = true ∧ r.Moves r' id next error ∨ moved = false ∧ r' = r := by
  refine moves_updateIf (fun t u hu => ?_) h
  rw [Task.moveTo?] at hu
  split at hu
  · cases hu
    exact ⟨‹_›, rfl, rfl, rfl, rfl, rfl⟩
  · cases hu

theorem moves_failPending {error : String} {now : Time.Timestamp} {moved : Bool}
    (h : r.failPending id error now = (r', moved)) :
    moved = true ∧ r.Moves r' id .failed (some error) ∨ moved = false ∧ r' = r := by
  refine moves_updateIf (fun t u hu => ?_) h
  rw [Task.failPending?] at hu
  split at hu
  · rename_i hpending
    cases hu
    exact ⟨by rw [hpending]; rfl, rfl, rfl, rfl, rfl, rfl⟩
  · cases hu

namespace Moves

variable {next : TaskStatus} {error : Option String} (h : r.Moves r' id next error)
include h

/-- Ended tasks stay as they ended. -/
theorem lastSeen?_of_isTerminal (ht : r.lastSeen? j = some t)
    (hended : t.status.isTerminal = true) : r'.lastSeen? j = some t := by
  by_cases hj : j = id
  · subst hj
    obtain ⟨t', _, ht', hcan, _⟩ := h.moved
    cases ht.symm.trans ht'
    rw [TaskStatus.canMoveTo_of_isTerminal hended] at hcan
    cases hcan
  · rw [h.others j hj, ht]

/-- A task was as it is, unless it is the one that moved. -/
theorem back {u : Task} (hu : r'.lastSeen? j = some u) :
    r.lastSeen? j = some u ∨ j = id ∧ u.status = next ∧
      ∃ t, r.lastSeen? id = some t ∧ t.status.canMoveTo next = true ∧
        u.error = error.or t.error := by
  by_cases hj : j = id
  · subst hj
    obtain ⟨t, u', ht, hcan, hu', hstatus, herror, -⟩ := h.moved
    cases hu.symm.trans hu'
    exact Or.inr ⟨rfl, hstatus, t, ht, hcan, herror⟩
  · rw [h.others j hj] at hu
    exact Or.inl hu

end Moves

end CodeIndex.TaskRegistry
