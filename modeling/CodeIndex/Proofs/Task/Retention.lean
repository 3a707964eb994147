import CodeIndex.Proofs.Task.Lifecycle
import Mathlib.Data.List.Dedup
/-!
# Retention

`retention_exact`: whatever was done to the registry, it lists each task that it retains once, in
the order of their submission; an eviction lets go of the oldest ended tasks, as many as there are
too many tasks, and of no other; and a task that is removed is the only one to go.

The records and the order are kept side by side. That they agree (`IsInOrder`) is carried through
every call: a task is submitted, tasks are let go (`LetsGo`), or the registry retains what it
retained (`Retains`).
-/

namespace CodeIndex

open CodeIndex.Keyed

/-! ### Reachable registries -/

namespace Operation

/-- A task is submitted under an id that the registry does not list, and no update gives a task
another id. The registry itself takes any update. Those that a runner makes set the number of files
or the file that is being taken in, or count a file that has been; so all of them keep the id. -/
def IsFresh (r : TaskRegistry) : Operation → Prop
  | insert id _ _ _ _ => r.get? id = none
  | update _ f => ∀ t, (f t).id = t.id
  | _ => True

/-- The ids under which a call submits tasks. -/
def submitted : Operation → List String
  | insert id _ _ _ _ => [id]
  | _ => []

end Operation

namespace TaskRegistry

/-- Every call comes with a fresh id. -/
def AreFresh : TaskRegistry → List Operation → Prop
  | _, [] => True
  | r, op :: ops => op.IsFresh r ∧ AreFresh (op.perform r).1 ops

variable {r r' : TaskRegistry} {id j : String} {ids gone : List String} {t : Task}

/-! ### What is retained -/

theorem id_of_get? (h : r.get? j = some t) : t.id = j :=
  id_of_lastSeen? (lastSeen?_of_get? h)

theorem get?_congr (h : r'.record? j = r.record? j) : r'.get? j = r.get? j := by
  rw [get?, get?, h]

theorem get?_insert (t : Task) (j : String) :
    (r.insert t).get? j = if t.id = j then some t else r.get? j := by
  rw [get?, record?_insert]
  split <;> rfl

theorem record?_release_of_ne (hj : j ≠ id) : (r.release id).record? j = r.record? j :=
  record?_modify_of_ne (fun _ ha => ha) hj

theorem get?_release (id j : String) :
    (r.release id).get? j = if j = id then none else r.get? j := by
  by_cases hj : j = id
  · subst hj
    have hid : ∀ a : TaskRecord, a.id = j → (TaskRecord.id { a with retained := false }) = j :=
      fun _ ha => ha
    rw [if_pos rfl, get?, release, record?_modify hid]
    cases h : r.record? j with
    | none => rfl
    | some a => cases hretained : a.retained <;> simp [id_of_record? h, hretained]
  · rw [if_neg hj]
    exact get?_congr (record?_release_of_ne hj)

/-! ### Calls that let nothing go -/

/-- The registry retains what it retained, in the same order. -/
structure Retains (r r' : TaskRegistry) : Prop where
  ids : r'.ids = r.ids
  order : r'.order = r.order
  isSome_get? : ∀ j, (r'.get? j).isSome = (r.get? j).isSome

theorem Retains.refl (r : TaskRegistry) : r.Retains r :=
  ⟨rfl, rfl, fun _ => rfl⟩

/-- A record may be modified in anything but its id and whether it is retained. -/
theorem retains_modify {f : TaskRecord → TaskRecord} (hid : ∀ a, a.id = id → (f a).id = id)
    (hretained : ∀ a, (f a).retained = a.retained) : r.Retains (r.modify id f) where
  ids := ids_modify hid
  order := rfl
  isSome_get? := by
    intro j
    rw [get?, get?, record?_modify hid, Option.isSome_map, Option.isSome_map]
    cases r.record? j with
    | none => rfl
    | some a =>
      have hsame : (if a.id = id && a.retained then f a else a).retained = a.retained := by
        split
        · exact hretained a
        · rfl
      rw [Option.map_some, Option.filter_some, Option.filter_some, hsame]
      cases a.retained <;> rfl

theorem retains_update {f : Task → Task} (hf : ∀ t, t.id = id → (f t).id = id) :
    r.Retains (r.update id f) :=
  retains_modify (fun a => hf a.task) fun _ => rfl

theorem retains_updateIf {f : Task → Option Task} (hf : ∀ t u, f t = some u → u.id = t.id) :
    r.Retains (r.updateIf id f).1 := by
  rcases updateIf_cases r id f with ⟨a, u, ha, -, hu, heq⟩ | ⟨-, heq⟩
  · rw [heq]
    exact retains_update fun _ _ => (hf _ _ hu).trans (id_of_record? ha)
  · rw [heq]
    exact .refl r

theorem retains_requestCancel (h : r.requestCancel id = .ok (r', t)) : r.Retains r' := by
  rw [requestCancel] at h
  split at h
  · cases h
  · split at h
    · cases h
    · cases h
      exact retains_modify (fun _ ha => ha) fun _ => rfl

/-! ### Letting go -/

/-- Some tasks are let go, and the records of the others stay as they are. -/
structure LetsGo (r r' : TaskRegistry) (gone : List String) : Prop where
  ids : r'.ids = r.ids
  order : r'.order = r.order.filter (· ∉ gone)
  get?_eq_none : ∀ j ∈ gone, r'.get? j = none
  record?_eq : ∀ j, j ∉ gone → r'.record? j = r.record? j

theorem LetsGo.get? (h : r.LetsGo r' gone) (j : String) :
    r'.get? j = if j ∈ gone then none else r.get? j := by
  split
  · exact h.get?_eq_none j ‹_›
  · exact get?_congr (h.record?_eq j ‹_›)

theorem letsGo_remove (h : r.remove id = .ok (r', t)) : r.LetsGo r' [id] := by
  rw [remove] at h
  split at h
  · cases h
  · split at h
    · cases h
      refine ⟨ids_modify fun _ ha => ha, ?_, ?_, ?_⟩
      · exact List.filter_congr fun j _ => by simp [bne, beq_eq_decide]
      · intro j hj
        have hgone := get?_release (r := r) id j
        rw [if_pos (List.mem_singleton.mp hj)] at hgone
        exact hgone
      · intro j hj
        exact record?_release_of_ne (List.ne_of_not_mem_cons hj)
    · cases h

theorem hasEnded_release (hj : j ≠ id) : (r.release id).hasEnded j = r.hasEnded j := by
  rw [hasEnded, hasEnded, get?_release, if_neg hj]

/-- The ids that an eviction from `order` lets go of: the first ones whose tasks have ended. -/
def evictable (r : TaskRegistry) (excess : Nat) (order : List String) : List String :=
  (order.filter r.hasEnded).take excess

theorem subset_of_evictable (excess : Nat) (order : List String) :
    r.evictable excess order ⊆ order :=
  ((List.take_sublist _ _).trans List.filter_sublist).subset

theorem evictable_zero (r : TaskRegistry) (order : List String) : r.evictable 0 order = [] :=
  rfl

theorem evictable_cons_of_hasEnded {excess : Nat} {rest : List String} (hid : id ∉ rest)
    (hexcess : excess ≠ 0) (hended : r.hasEnded id = true) :
    r.evictable excess (id :: rest) = id :: (r.release id).evictable (excess - 1) rest := by
  have hsame : rest.filter (r.release id).hasEnded = rest.filter r.hasEnded :=
    List.filter_congr fun j hj => hasEnded_release (ne_of_mem_of_not_mem hj hid)
  obtain ⟨n, rfl⟩ := Nat.exists_eq_succ_of_ne_zero hexcess
  rw [evictable, evictable, List.filter_cons_of_pos hended, hsame]
  rfl

theorem evictable_cons_of_not {excess : Nat} {rest : List String} (hended : ¬ r.hasEnded id = true) :
    r.evictable excess (id :: rest) = r.evictable excess rest := by
  rw [evictable, evictable, List.filter_cons_of_neg hended]

/-- The loop of an eviction: what it lets go of, what it keeps of the order, and its count. -/
theorem evictFrom_eq {order : List String} (hnodup : order.Nodup) (excess : Nat) :
    (r.evictFrom excess order).2.1 = order.filter (· ∉ r.evictable excess order) ∧
    (r.evictFrom excess order).2.2 = (r.evictable excess order).length ∧
    (∀ j ∈ r.evictable excess order, (r.evictFrom excess order).1.get? j = none) ∧
    (∀ j, j ∉ r.evictable excess order → (r.evictFrom excess order).1.record? j = r.record? j) := by
  induction order generalizing r excess with
  | nil => simp [evictFrom, evictable]
  | cons id rest ih =>
    obtain ⟨hid, hrest⟩ := List.nodup_cons.mp hnodup
    rw [evictFrom]
    by_cases hexcess : excess = 0
    · simp [hexcess, evictable_zero]
    rw [if_neg hexcess]
    split
    · rename_i hended
      obtain ⟨hkept, hcount, hnone, hrecord⟩ := ih (r := r.release id) hrest (excess - 1)
      rw [evictable_cons_of_hasEnded hid hexcess hended]
      refine ⟨?_, ?_, ?_, ?_⟩
      · rw [List.filter_cons_of_neg (by simp)]
        refine hkept.trans (List.filter_congr fun j hj => ?_)
        simp [ne_of_mem_of_not_mem hj hid]
      · exact congrArg Nat.succ hcount
      · intro j hj
        by_cases hlater : j ∈ (r.release id).evictable (excess - 1) rest
        · exact hnone j hlater
        · have hself : j = id := (List.mem_cons.mp hj).resolve_right hlater
          exact (get?_congr (hrecord j hlater)).trans (by rw [get?_release, if_pos hself])
      · intro j hj
        rw [List.mem_cons, not_or] at hj
        exact (hrecord j hj.2).trans (record?_release_of_ne hj.1)
    · rename_i hended
      obtain ⟨hkept, hcount, hnone, hrecord⟩ := ih (r := r) hrest excess
      have hkeeps : id ∉ r.evictable excess rest := fun h => hid (subset_of_evictable _ _ h)
      rw [evictable_cons_of_not hended]
      refine ⟨?_, hcount, hnone, hrecord⟩
      rw [List.filter_cons_of_pos (by simpa using hkeeps)]
      exact congrArg (id :: ·) hkept

/-- An eviction stops where nothing more is to go. -/
theorem evictFrom_of_evictable_eq_nil {order : List String} {excess : Nat}
    (h : r.evictable excess order = []) : r.evictFrom excess order = (r, order, 0) := by
  induction order with
  | nil => rfl
  | cons id rest ih =>
    rw [evictFrom]
    split
    · rfl
    · rename_i hexcess
      have hended : ¬ r.hasEnded id = true := by
        intro hended
        rw [evictable, List.filter_cons_of_pos hended, List.take_eq_nil_iff] at h
        exact h.elim hexcess (List.cons_ne_nil _ _)
      rw [if_neg hended, ih (evictable_cons_of_not hended ▸ h)]

theorem letsGo_evict (hnodup : r.order.Nodup) (limit : Nat) :
    r.LetsGo (r.evict limit).1 (r.evictable (r.size - limit) r.order) := by
  obtain ⟨hkept, -, hnone, hrecord⟩ := evictFrom_eq (r := r) hnodup (r.size - limit)
  exact ⟨(keeps_evictFrom r _ r.order).ids, hkept, hnone, hrecord⟩

/-! ### The order of the registry -/

/-- The registry lists the tasks that it retains once each, in the order in which `ids` were
submitted. Of several submissions under one id the last counts. -/
structure IsInOrder (ids : List String) (r : TaskRegistry) : Prop where
  nodup : r.ids.Nodup
  submitted : ∀ j, (r.get? j).isSome → j ∈ ids
  order : r.order = ids.dedup.filter fun j => (r.get? j).isSome

/-- Of a list with one more element at its end, the earlier occurrences of the element do not
count. -/
theorem dedup_concat (ids : List String) (id : String) :
    (ids ++ [id]).dedup = ids.dedup.filter (· ≠ id) ++ [id] := by
  induction ids with
  | nil => rfl
  | cons j ids ih =>
    rw [List.cons_append]
    by_cases hmem : j ∈ ids
    · rw [List.dedup_cons_of_mem (List.mem_append_left _ hmem), List.dedup_cons_of_mem hmem, ih]
    · rw [List.dedup_cons_of_notMem hmem]
      by_cases hj : j = id
      · subst hj
        rw [List.dedup_cons_of_mem (by simp), ih, List.filter_cons_of_neg (by simp)]
      · rw [List.dedup_cons_of_notMem (by simp [hmem, hj]), ih, List.filter_cons_of_pos (by simp [hj]),
          List.cons_append]

namespace IsInOrder

theorem nodup_order (h : r.IsInOrder ids) : r.order.Nodup := by
  rw [h.order]
  exact (List.nodup_dedup ids).filter _

theorem mem_order (h : r.IsInOrder ids) (j : String) : j ∈ r.order ↔ (r.get? j).isSome := by
  rw [h.order, List.mem_filter, List.mem_dedup]
  exact ⟨And.right, fun hj => ⟨h.submitted j hj, hj⟩⟩

theorem retains (h : r.IsInOrder ids) (hstep : r.Retains r') : r'.IsInOrder ids where
  nodup := hstep.ids ▸ h.nodup
  submitted := by
    intro j hj
    rw [hstep.isSome_get?] at hj
    exact h.submitted j hj
  order := by
    rw [hstep.order, h.order]
    exact List.filter_congr fun j _ => (hstep.isSome_get? j).symm

theorem letsGo (h : r.IsInOrder ids) (hstep : r.LetsGo r' gone) : r'.IsInOrder ids where
  nodup := hstep.ids ▸ h.nodup
  submitted := by
    intro j hj
    rw [hstep.get?] at hj
    split at hj
    · cases hj
    · exact h.submitted j hj
  order := by
    rw [hstep.order, h.order, List.filter_filter]
    refine List.filter_congr fun j _ => ?_
    rw [hstep.get?]
    by_cases hj : j ∈ gone <;> simp [hj]

/-- A task that is submitted comes last, wherever its id came before. -/
theorem insert (h : r.IsInOrder ids) (hnew : r.get? t.id = none) :
    (r.insert t).IsInOrder (ids ++ [t.id]) where
  nodup := nodup_put TaskRecord.id _ h.nodup
  submitted := by
    intro j hj
    rw [get?_insert] at hj
    split at hj
    · exact List.mem_append_right _ (List.mem_singleton.mpr (Eq.symm ‹_›))
    · exact List.mem_append_left _ (h.submitted j hj)
  order := by
    rw [dedup_concat, List.filter_append, List.filter_filter]
    have hself : [t.id].filter (fun j => ((r.insert t).get? j).isSome) = [t.id] := by
      simp [get?_insert]
    have horder : (r.insert t).order = r.order ++ [t.id] := rfl
    rw [hself, horder, h.order]
    refine congrArg (· ++ [t.id]) (List.filter_congr fun j _ => ?_)
    rw [get?_insert]
    by_cases hj : t.id = j
    · subst hj
      simp [hnew]
    · simp [hj, Ne.symm hj]

end IsInOrder

/-- Every call submits a task, lets some go, or lets the registry retain what it retained. -/
theorem perform_cases (hnodup : r.order.Nodup) {op : Operation} (fresh : op.IsFresh r) :
    (∃ t : Task, op.submitted = [t.id] ∧ r.get? t.id = none ∧ (op.perform r).1 = r.insert t) ∨
    op.submitted = [] ∧ (r.Retains (op.perform r).1 ∨ ∃ gone, r.LetsGo (op.perform r).1 gone) := by
  cases op with
  | insert id source branch retryOf now =>
    exact Or.inl ⟨.submitted id source branch retryOf now, rfl, fresh, rfl⟩
  | update id f =>
    exact Or.inr ⟨rfl, Or.inl (retains_update fun t ht => (fresh t).trans ht)⟩
  | requestCancel id =>
    refine Or.inr ⟨rfl, Or.inl ?_⟩
    rw [Operation.perform]
    split
    · exact retains_requestCancel ‹_›
    · exact .refl r
  | transition id next error now =>
    exact Or.inr ⟨rfl, Or.inl (retains_updateIf fun _ _ hu => (Task.moveTo?_eq_some hu).2.1)⟩
  | failPending id error now =>
    exact Or.inr ⟨rfl, Or.inl (retains_updateIf fun _ _ hu => (Task.failPending?_eq_some hu).2.1)⟩
  | remove id =>
    refine Or.inr ⟨rfl, ?_⟩
    rw [Operation.perform]
    split
    · exact Or.inr ⟨_, letsGo_remove ‹_›⟩
    · exact Or.inl (.refl r)
  | evict limit => exact Or.inr ⟨rfl, Or.inr ⟨_, letsGo_evict hnodup limit⟩⟩

theorem IsInOrder.perform (h : r.IsInOrder ids) {op : Operation} (fresh : op.IsFresh r) :
    (op.perform r).1.IsInOrder (ids ++ op.submitted) := by
  rcases perform_cases h.nodup_order fresh with ⟨t, hids, hnew, heq⟩ | ⟨hids, hkept | ⟨gone, hgone⟩⟩
  · rw [hids, heq]
    exact h.insert hnew
  · rw [hids, List.append_nil]
    exact h.retains hkept
  · rw [hids, List.append_nil]
    exact h.letsGo hgone

theorem IsInOrder.after (h : r.IsInOrder ids) {ops : List Operation} (fresh : r.AreFresh ops) :
    (r.after ops).IsInOrder (ids ++ ops.flatMap Operation.submitted) := by
  induction ops generalizing r ids with
  | nil => rwa [List.flatMap_nil, List.append_nil]
  | cons op ops ih =>
    rw [List.flatMap_cons, ← List.append_assoc]
    exact ih (h.perform fresh.1) fresh.2

theorem isInOrder_empty : empty.IsInOrder [] :=
  ⟨List.nodup_nil, nofun, rfl⟩

/-! ### The list of tasks -/

theorem get?_of_mem_list (h : t ∈ r.list) : r.get? t.id = some t := by
  obtain ⟨j, -, hj⟩ := List.mem_filterMap.mp h
  rwa [id_of_get? hj]

/-- Tasks are found under their ids. -/
theorem filterMap_map_id {tasks : List Task} {find : String → Option Task}
    (h : ∀ t ∈ tasks, find t.id = some t) : (tasks.map (·.id)).filterMap find = tasks := by
  rw [List.filterMap_map]
  exact (List.filterMap_congr fun t ht => h t ht).trans List.filterMap_some

/-- The tasks that have ended, the oldest first. -/
def ended (r : TaskRegistry) : List Task :=
  r.list.filter (·.status.isTerminal)

namespace IsInOrder

theorem mem_list_iff (h : r.IsInOrder ids) : t ∈ r.list ↔ r.get? t.id = some t :=
  ⟨get?_of_mem_list, fun ht => List.mem_filterMap.mpr
    ⟨t.id, (h.mem_order t.id).mpr (Option.isSome_of_eq_some ht), ht⟩⟩

theorem map_id_list (h : r.IsInOrder ids) : r.list.map (·.id) = r.order := by
  have hid : ∀ j ∈ r.order, (r.get? j).map (·.id) = some j := by
    intro j hj
    obtain ⟨t, ht⟩ := Option.isSome_iff_exists.mp ((h.mem_order j).mp hj)
    rw [ht, Option.map_some, id_of_get? ht]
  rw [list, List.map_filterMap]
  exact (List.filterMap_congr hid).trans List.filterMap_some

theorem nodup_map_id (h : r.IsInOrder ids) : (r.list.map (·.id)).Nodup :=
  h.map_id_list ▸ h.nodup_order

theorem nodup_list (h : r.IsInOrder ids) : r.list.Nodup :=
  h.nodup_map_id.of_map

/-- The number of retained tasks is that of the listed ones. -/
theorem size_eq (h : r.IsInOrder ids) : r.size = r.list.length := by
  have hmem : ∀ j, j ∈ (r.records.filter (·.retained)).map TaskRecord.id ↔ j ∈ r.order := by
    intro j
    rw [h.mem_order, Option.isSome_iff_exists, List.mem_map]
    constructor
    · rintro ⟨a, ha, rfl⟩
      obtain ⟨hrecord, hretained⟩ := List.mem_filter.mp ha
      exact ⟨_, get?_of_record? (record?_of_mem h.nodup hrecord) hretained⟩
    · rintro ⟨t, ht⟩
      obtain ⟨a, ha, hretained, -⟩ := get?_eq_some ht
      exact ⟨a, List.mem_filter.mpr ⟨List.mem_of_find?_eq_some ha, hretained⟩, id_of_record? ha⟩
  have hnodup : ((r.records.filter (·.retained)).map TaskRecord.id).Nodup :=
    h.nodup.sublist (List.filter_sublist.map _)
  have hperm := (List.perm_ext_iff_of_nodup hnodup h.nodup_order).mpr hmem
  rw [size, List.countP_eq_length_filter, ← List.length_map TaskRecord.id, hperm.length_eq,
    ← h.map_id_list, List.length_map]

/-- What is left when tasks are let go. -/
theorem list_of_letsGo (h : r.IsInOrder ids) (hstep : r.LetsGo r' gone) :
    r'.list = r.list.filter (·.id ∉ gone) := by
  rw [list, hstep.order, ← h.map_id_list, List.filter_map]
  refine filterMap_map_id fun t ht => ?_
  obtain ⟨hlisted, hkept⟩ := List.mem_filter.mp ht
  rw [hstep.get?, if_neg (of_decide_eq_true hkept), get?_of_mem_list hlisted]

theorem map_id_ended (h : r.IsInOrder ids) : r.ended.map (·.id) = r.order.filter r.hasEnded := by
  rw [← h.map_id_list, List.filter_map, ended]
  refine congrArg _ (List.filter_congr fun t ht => ?_)
  rw [Function.comp_apply, hasEnded, get?_of_mem_list ht, Option.all_some]

theorem evictable_eq (h : r.IsInOrder ids) (excess : Nat) :
    r.evictable excess r.order = (r.ended.take excess).map (·.id) := by
  rw [evictable, ← h.map_id_ended, List.map_take]

end IsInOrder

/-! ### Eviction -/

/-- The tasks that an eviction down to `limit` has to let go: the oldest ended tasks, as many as
there are too many tasks. -/
def excess (r : TaskRegistry) (limit : Nat) : List Task :=
  r.ended.take (min r.ended.length (r.list.length - limit))

/-- An eviction down to `limit` lets go of the oldest ended tasks, as many as there are too many
tasks, and of nothing else. -/
structure EvictsOldest (r : TaskRegistry) (limit : Nat) : Prop where
  count : (r.evict limit).2 = min r.ended.length (r.list.length - limit)
  /-- The tasks that are left, in their order. -/
  list : (r.evict limit).1.list = r.list.filter (· ∉ r.excess limit)
  get?_eq_none : ∀ t ∈ r.excess limit, (r.evict limit).1.get? t.id = none
  record?_eq : ∀ j, (∀ t ∈ r.excess limit, t.id ≠ j) →
    (r.evict limit).1.record? j = r.record? j
  unended : ∀ t ∈ r.list, t.status.isTerminal = false → t ∈ (r.evict limit).1.list
  /-- A second eviction does nothing. -/
  again : (r.evict limit).1.evict limit = ((r.evict limit).1, 0)

theorem excess_sublist_ended (r : TaskRegistry) (limit : Nat) : (r.excess limit).Sublist r.ended :=
  List.take_sublist _ _

theorem excess_sublist (r : TaskRegistry) (limit : Nat) : (r.excess limit).Sublist r.list :=
  (r.excess_sublist_ended limit).trans List.filter_sublist

theorem length_excess (r : TaskRegistry) (limit : Nat) :
    (r.excess limit).length = min r.ended.length (r.list.length - limit) := by
  rw [excess, List.length_take]
  omega

namespace IsInOrder

variable (h : r.IsInOrder ids) (limit : Nat)
include h

theorem evictable_order :
    r.evictable (r.size - limit) r.order = (r.excess limit).map (·.id) := by
  rw [h.evictable_eq, h.size_eq, excess]
  rcases Nat.le_total r.ended.length (r.list.length - limit) with hle | hle
  · rw [Nat.min_eq_left hle, List.take_length, List.take_of_length_le hle]
  · rw [Nat.min_eq_right hle]

theorem letsGo_excess : r.LetsGo (r.evict limit).1 ((r.excess limit).map (·.id)) :=
  h.evictable_order limit ▸ letsGo_evict h.nodup_order limit

theorem list_evict : (r.evict limit).1.list = r.list.filter (· ∉ r.excess limit) := by
  rw [h.list_of_letsGo (h.letsGo_excess limit)]
  refine List.filter_congr fun t ht => decide_eq_decide.mpr (not_congr ?_)
  constructor
  · intro hid
    obtain ⟨u, hu, heq⟩ := List.mem_map.mp hid
    have hlisted := (r.excess_sublist limit).subset hu
    rwa [← List.inj_on_of_nodup_map h.nodup_map_id hlisted ht heq]
  · exact List.mem_map_of_mem

/-- The tasks that are left and those that are let go are all there were. -/
theorem length_list_evict :
    (r.evict limit).1.list.length + (r.excess limit).length = r.list.length := by
  have hsub := r.excess_sublist limit
  have hperm : (r.list.filter (· ∈ r.excess limit)).Perm (r.excess limit) := by
    refine (List.perm_ext_iff_of_nodup (h.nodup_list.filter _) (h.nodup_list.sublist hsub)).mpr ?_
    intro t
    rw [List.mem_filter, decide_eq_true_iff]
    exact ⟨And.right, fun ht => ⟨hsub.subset ht, ht⟩⟩
  have hsplit := (List.filter_append_perm (· ∈ r.excess limit) r.list).length_eq
  rw [List.length_append, hperm.length_eq] at hsplit
  rw [h.list_evict, ← hsplit, Nat.add_comm]
  simp only [decide_not]

/-- After an eviction there are no more tasks than the limit, or none that has ended. -/
theorem excess_evict : (r.evict limit).1.excess limit = [] := by
  rw [excess, List.take_eq_nil_iff]
  rcases Nat.le_total r.ended.length (r.list.length - limit) with hle | hle
  · right
    have hall : r.excess limit = r.ended := by
      rw [excess, Nat.min_eq_left hle, List.take_length]
    rw [ended, h.list_evict, hall, List.filter_eq_nil_iff]
    intro t ht hended
    obtain ⟨hlisted, hleft⟩ := List.mem_filter.mp ht
    exact of_decide_eq_true hleft (List.mem_filter.mpr ⟨hlisted, hended⟩)
  · left
    have hlength := h.length_list_evict limit
    rw [r.length_excess] at hlength
    omega

theorem evictsOldest : r.EvictsOldest limit where
  count := by
    rw [← r.length_excess, ← List.length_map (·.id), ← h.evictable_order limit]
    exact (evictFrom_eq h.nodup_order _).2.1
  list := h.list_evict limit
  get?_eq_none := fun t ht =>
    (h.letsGo_excess limit).get?_eq_none t.id (List.mem_map_of_mem ht)
  record?_eq := by
    intro j hj
    refine (h.letsGo_excess limit).record?_eq j fun hmem => ?_
    obtain ⟨t, ht, hid⟩ := List.mem_map.mp hmem
    exact hj t ht hid
  unended := by
    intro t ht hunended
    rw [h.list_evict, List.mem_filter, decide_eq_true_iff]
    refine ⟨ht, fun hgone => ?_⟩
    have hended := (List.mem_filter.mp ((r.excess_sublist_ended limit).subset hgone)).2
    rw [hunended] at hended
    cases hended
  again := by
    have h' := h.letsGo (h.letsGo_excess limit)
    have hnone := h'.evictable_order limit
    rw [h.excess_evict limit, List.map_nil] at hnone
    rw [evict, evictFrom_of_evictable_eq_nil hnone]

end IsInOrder

/-! ### Removal -/

/-- A removal deletes the one task that is named, if it has ended, and nothing otherwise. -/
structure RemovesOnly (r : TaskRegistry) (id : String) : Prop where
  ended : ∀ t, r.get? id = some t → t.status.isTerminal = true → ∃ r', r.remove id = .ok (r', t) ∧
    r'.list = r.list.filter (·.id ≠ id) ∧ r'.get? id = none ∧
    ∀ j, j ≠ id → r'.record? j = r.record? j
  refused : (∀ t, r.get? id = some t → t.status.isTerminal = false) →
    ∃ fault, (Operation.remove id).perform r = (r, .refused fault)

theorem IsInOrder.removesOnly (h : r.IsInOrder ids) (id : String) : r.RemovesOnly id where
  ended := by
    intro t ht hended
    have hremove : r.remove id
        = .ok ({ r.release id with order := r.order.filter (· != id) }, t) := by
      rw [remove, ht]
      exact if_pos hended
    have hstep := letsGo_remove hremove
    refine ⟨_, hremove, ?_, hstep.get?_eq_none id (List.mem_singleton_self id), fun j hj => ?_⟩
    · rw [h.list_of_letsGo hstep]
      exact List.filter_congr fun u _ => by simp
    · exact hstep.record?_eq j (by simpa using hj)
  refused := by
    intro hunended
    cases hget : r.get? id with
    | none => exact ⟨_, (r.answersExactly id).remove_unknown hget⟩
    | some t => exact ⟨_, (r.answersExactly id).remove_unended t hget (hunended t hget)⟩

/-! ### The result -/

/-- The registry lists every task that it retains once, in the order in which `ids` were submitted;
of several submissions under one id the last counts. -/
structure ListsRetained (r : TaskRegistry) (ids : List String) : Prop where
  nodup : (r.list.map (·.id)).Nodup
  mem_iff : ∀ id t, t ∈ r.list ∧ t.id = id ↔ r.get? id = some t
  order : r.list.map (·.id) = ids.dedup.filter fun id => (r.get? id).isSome
  size : r.size = r.list.length

theorem IsInOrder.listsRetained (h : r.IsInOrder ids) : r.ListsRetained ids where
  nodup := h.nodup_map_id
  mem_iff := by
    intro id t
    rw [h.mem_list_iff]
    constructor
    · rintro ⟨ht, rfl⟩
      exact ht
    · intro ht
      have hid := id_of_get? ht
      exact ⟨hid.symm ▸ ht, hid⟩
  order := h.map_id_list.trans h.order
  size := h.size_eq

/-- **Retention**: after any calls with fresh ids the list has every retained task once and in the
order of submission, an eviction lets go of exactly the oldest ended tasks that are too many, and a
removal of exactly the task that is named. -/
theorem retention_exact {ops : List Operation} (fresh : empty.AreFresh ops) :
    (empty.after ops).ListsRetained (ops.flatMap Operation.submitted) ∧
    (∀ limit, (empty.after ops).EvictsOldest limit) ∧
    ∀ id, (empty.after ops).RemovesOnly id := by
  have h := isInOrder_empty.after fresh
  exact ⟨h.listsRetained, h.evictsOldest, h.removesOnly⟩

/-- Task `a` is forgotten and submitted again, so `c` is the oldest ended task when there is one
task too many; `b`, which is older, runs. -/
theorem retention_exact_resubmitted :
    let ops : List Operation :=
      [.insert "a" "s" none none .epoch, .insert "b" "s" none none .epoch,
        .insert "c" "s" none none .epoch, .failPending "a" "refused" .epoch,
        .transition "b" .processing none .epoch, .failPending "c" "refused" .epoch, .remove "a",
        .insert "a" "s" none none .epoch, .update "b" (.beginFile "x"), .requestCancel "b",
        .failPending "a" "refused" .epoch]
    let r := empty.after ops
    ops.flatMap Operation.submitted = ["a", "b", "c", "a"] ∧
      r.list.map (·.id) = ["b", "c", "a"] ∧ (r.excess 2).map (·.id) = ["c"] ∧
      (r.evict 2).1.list.map (·.id) = ["b", "a"] ∧
      r.ListsRetained (ops.flatMap Operation.submitted) ∧ r.EvictsOldest 2 := by
  intro ops r
  have fresh : empty.AreFresh ops :=
    ⟨rfl, rfl, rfl, trivial, trivial, trivial, trivial, rfl, fun _ => rfl, trivial, trivial,
      trivial⟩
  obtain ⟨hlists, hevicts, -⟩ := retention_exact fresh
  exact ⟨by decide, by decide, by decide, by decide, hlists, hevicts 2⟩

end TaskRegistry

end CodeIndex
