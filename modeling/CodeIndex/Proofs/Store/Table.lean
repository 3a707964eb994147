import CodeIndex.Proofs.Keyed
import CodeIndex.Store.Database
import CodeIndex.Store.Memory
/-!
# One table and its groups

Chunks and triples are kept alike: in memory as a group of records for each resource, in the
database as the rows of one table. The table holds the groups when, up to order, its rows are the
records of all groups, and the rows of one resource are its group in order (`Table.Holds`).
Replacing what a resource owns keeps this (`Table.Holds.replace`), as long as no record of another
resource has an id of a new one.
-/

namespace CodeIndex.Store

open CodeIndex.Keyed

/-- How a kind of record is written: its row, its id and the resource it belongs to. -/
structure Encoding (α : Type) where
  encode : α → Row
  ident : α → String
  owner : α → String
  rowId_encode : ∀ x, Database.rowId (encode x) = .text (ident x)
  rowOwner_encode : ∀ x, Database.rowOwner (encode x) = .text (owner x)

namespace Table

variable {α : Type} (e : Encoding α)

/-- The records of a resource. -/
def groupOf (groups : List (String × List α)) (id : String) : List α :=
  ((lookUp (·.1) id groups).map (·.2)).getD []

/-- What was ever written for resources: every record under its own resource, no id twice at once,
and no id under two resources. -/
structure IsWritten (written : List (String × List α)) : Prop where
  owned : ∀ g ∈ written, ∀ x ∈ g.2, e.owner x = g.1
  distinct : ∀ g ∈ written, (g.2.map e.ident).Nodup
  apart : ∀ g ∈ written, ∀ g' ∈ written, ∀ x ∈ g.2, ∀ y ∈ g'.2, e.ident x = e.ident y → g.1 = g'.1

/-- What is written in steps, each with its resource and its records. -/
theorem isWritten_map {σ : Type} {steps : List σ} {owner : σ → String} {records : σ → List α}
    (howned : ∀ s ∈ steps, ∀ x ∈ records s, e.owner x = owner s)
    (hdistinct : ∀ s ∈ steps, ((records s).map e.ident).Nodup)
    (hapart : ∀ s ∈ steps, ∀ s' ∈ steps, ∀ x ∈ records s, ∀ y ∈ records s',
      e.ident x = e.ident y → owner s = owner s') :
    IsWritten e (steps.map fun s => (owner s, records s)) := by
  refine ⟨?_, ?_, ?_⟩
  · intro g hg
    obtain ⟨s, hs, rfl⟩ := List.mem_map.mp hg
    exact howned s hs
  · intro g hg
    obtain ⟨s, hs, rfl⟩ := List.mem_map.mp hg
    exact hdistinct s hs
  · intro g hg g' hg'
    obtain ⟨s, hs, rfl⟩ := List.mem_map.mp hg
    obtain ⟨s', hs', rfl⟩ := List.mem_map.mp hg'
    exact hapart s hs s' hs'

/-- The rows of a table hold groups that were written. -/
structure Holds (written groups : List (String × List α)) (rows : List Row) : Prop where
  keys_nodup : (groups.map (·.1)).Nodup
  written_of_mem : ∀ g ∈ groups, g ∈ written
  perm : rows.Perm ((groups.flatMap (·.2)).map e.encode)
  rows_of_owner : ∀ id, (rows.filter fun row => Database.rowOwner row == .text id)
    = (groupOf groups id).map e.encode

theorem Holds.empty (written : List (String × List α)) : Holds e written [] [] where
  keys_nodup := List.nodup_nil
  written_of_mem := by simp
  perm := List.Perm.refl _
  rows_of_owner := fun _ => rfl

/-- The rows after the records of a resource were replaced. -/
def replaced (id : String) (xs : List α) (rows : List Row) : List Row :=
  xs.foldl (fun rows x => Database.insertOrReplace (e.encode x) rows)
    (Database.withoutOwner id rows)

variable {e}

theorem Holds.length_eq {written groups : List (String × List α)} {rows : List Row}
    (h : Holds e written groups rows) : rows.length = (groups.flatMap (·.2)).length := by
  rw [h.perm.length_eq, List.length_map]

/-! ### Inserting -/

/-- Rows with new ids are appended. -/
theorem foldl_insertOrReplace {xs : List α} (hnodup : (xs.map e.ident).Nodup) {rows : List Row}
    (hnew : ∀ row ∈ rows, ∀ x ∈ xs, Database.rowId row ≠ .text (e.ident x)) :
    xs.foldl (fun rows x => Database.insertOrReplace (e.encode x) rows) rows
      = rows ++ xs.map e.encode := by
  induction xs generalizing rows with
  | nil => rw [List.foldl_nil, List.map_nil, List.append_nil]
  | cons x xs ih =>
    rw [List.map_cons, List.nodup_cons] at hnodup
    have hinsert : Database.insertOrReplace (e.encode x) rows = rows ++ [e.encode x] := by
      rw [Database.insertOrReplace, List.filter_eq_self.mpr]
      intro row hrow
      rw [bne_iff_ne, e.rowId_encode]
      exact hnew row hrow x (List.mem_cons_self ..)
    rw [List.foldl_cons, hinsert, ih hnodup.2, List.append_assoc, List.map_cons,
      List.singleton_append]
    intro row hrow y hy
    rcases List.mem_append.mp hrow with hrow | hrow
    · exact hnew row hrow y (List.mem_cons_of_mem _ hy)
    · rw [List.mem_singleton.mp hrow, e.rowId_encode]
      intro heq
      refine hnodup.1 ?_
      rw [Cell.text.inj heq]
      exact List.mem_map_of_mem hy

/-- Records with new ids of a resource that owns no row are appended. -/
theorem replaced_of_new {id : String} {xs new : List α} (hother : ∀ x ∈ xs, e.owner x ≠ id)
    (hnodup : ((xs ++ new).map e.ident).Nodup) :
    replaced e id new (xs.map e.encode) = (xs ++ new).map e.encode := by
  rw [List.map_append, List.nodup_append] at hnodup
  obtain ⟨-, hnew, hne⟩ := hnodup
  have hkept : Database.withoutOwner id (xs.map e.encode) = xs.map e.encode := by
    refine List.filter_eq_self.mpr fun row hrow => ?_
    obtain ⟨x, hx, rfl⟩ := List.mem_map.mp hrow
    rw [bne_iff_ne, e.rowOwner_encode]
    exact fun heq => hother x hx (Cell.text.inj heq)
  rw [replaced, hkept, foldl_insertOrReplace hnew, List.map_append]
  intro row hrow y hy hid
  obtain ⟨x, hx, rfl⟩ := List.mem_map.mp hrow
  rw [e.rowId_encode] at hid
  exact hne _ (List.mem_map_of_mem hx) _ (List.mem_map_of_mem hy) (Cell.text.inj hid)

/-! ### Replacing -/

theorem groupOf_put (groups : List (String × List α)) (id k : String) (xs : List α) :
    groupOf (put (·.1) (id, xs) groups) k = if id = k then xs else groupOf groups k := by
  rw [groupOf, lookUp_put]
  by_cases h : id = k
  · rw [if_pos h, if_pos h]
    rfl
  · rw [if_neg h, if_neg h]
    rfl

section Replace

variable {written groups : List (String × List α)} {rows : List Row} {id : String} {xs : List α}
  (hwritten : IsWritten e written)
include hwritten

/-- The records of other resources are the groups of other resources. -/
theorem filter_owner_flatMap (hsub : ∀ g ∈ groups, g ∈ written) :
    ((groups.flatMap (·.2)).filter fun x => e.owner x != id)
      = (groups.filter fun g => g.1 != id).flatMap (·.2) := by
  rw [List.filter_flatMap]
  induction groups with
  | nil => rfl
  | cons g groups ih =>
    have hrest := ih fun g hg => hsub g (List.mem_cons_of_mem _ hg)
    have howned := hwritten.owned g (hsub g (List.mem_cons_self ..))
    rw [List.flatMap_cons, hrest]
    by_cases h : g.1 = id
    · rw [List.filter_cons_of_neg (by simpa using h), List.filter_eq_nil_iff.mpr, List.nil_append]
      intro x hx
      rw [howned x hx, h]
      simp
    · rw [List.filter_cons_of_pos (by simpa using h), List.filter_eq_self.mpr, List.flatMap_cons]
      intro x hx
      rw [howned x hx]
      exact bne_iff_ne.mpr h

theorem Holds.replaced_eq (h : Holds e written groups rows) (hmem : (id, xs) ∈ written) :
    replaced e id xs rows = Database.withoutOwner id rows ++ xs.map e.encode := by
  refine foldl_insertOrReplace (hwritten.distinct _ hmem) fun row hrow x hx hid => ?_
  obtain ⟨hrow, howner⟩ := List.mem_filter.mp hrow
  obtain ⟨y, hy, rfl⟩ := List.mem_map.mp (h.perm.mem_iff.mp hrow)
  obtain ⟨g, hg, hyg⟩ := List.mem_flatMap.mp hy
  -- A row that stays belongs to another resource, so it cannot have an id of a new record.
  have hgroup := hwritten.apart g (h.written_of_mem g hg) _ hmem y hyg x hx
    (Cell.text.inj ((e.rowId_encode y).symm.trans hid))
  rw [e.rowOwner_encode, hwritten.owned g (h.written_of_mem g hg) y hyg, hgroup, bne_self_eq_false]
    at howner
  cases howner

/-- The rows that stay are the records of the other groups. -/
theorem Holds.withoutOwner_perm (h : Holds e written groups rows) (id : String) :
    (Database.withoutOwner id rows).Perm
      (((groups.filter fun g => g.1 != id).flatMap (·.2)).map e.encode) := by
  have hsame : ((fun row => Database.rowOwner row != .text id) ∘ e.encode)
      = fun x => e.owner x != id := by
    funext x
    rw [Function.comp_apply, e.rowOwner_encode, Bool.eq_iff_iff, bne_iff_ne, bne_iff_ne, Ne,
      Cell.text.injEq]
  have hfilter := h.perm.filter fun row => Database.rowOwner row != .text id
  rw [List.filter_map, hsame, filter_owner_flatMap hwritten h.written_of_mem] at hfilter
  exact hfilter

omit hwritten in
/-- The rows of other resources stay as they were. -/
theorem filter_withoutOwner {k : String} (hk : id ≠ k) :
    ((Database.withoutOwner id rows).filter fun row => Database.rowOwner row == .text k)
      = rows.filter fun row => Database.rowOwner row == .text k := by
  rw [Database.withoutOwner, List.filter_filter]
  refine List.filter_congr fun row _ => ?_
  by_cases hrow : Database.rowOwner row = .text k
  · simp [hrow, Ne.symm hk]
  · simp [hrow]

/-- Replacing what a resource owns in the table replaces its group. -/
theorem Holds.replace (h : Holds e written groups rows) (hmem : (id, xs) ∈ written) :
    Holds e written (put (·.1) (id, xs) groups) (replaced e id xs rows) := by
  rw [h.replaced_eq hwritten hmem]
  have hput := put_perm (·.1) (id, xs) h.keys_nodup
  have howner : ∀ row ∈ xs.map e.encode, Database.rowOwner row = .text id := by
    intro row hrow
    obtain ⟨x, hx, rfl⟩ := List.mem_map.mp hrow
    rw [e.rowOwner_encode, hwritten.owned _ hmem x hx]
  refine ⟨nodup_put _ _ h.keys_nodup, ?_, ?_, ?_⟩
  · intro g hg
    rcases List.mem_append.mp (hput.mem_iff.mp hg) with hg | hg
    · exact h.written_of_mem g (List.mem_filter.mp hg).1
    · rw [List.mem_singleton.mp hg]
      exact hmem
  · have hgroups := (hput.flatMap_right (·.2)).map e.encode
    rw [List.flatMap_append, List.flatMap_singleton, List.map_append] at hgroups
    exact ((h.withoutOwner_perm hwritten id).append_right _).trans hgroups.symm
  · intro k
    rw [List.filter_append, groupOf_put]
    by_cases hk : id = k
    · -- All rows of the resource are new ones, in the order of the new records.
      subst hk
      rw [if_pos rfl, Database.withoutOwner, List.filter_filter,
        List.filter_eq_nil_iff.mpr (by simp), List.nil_append, List.filter_eq_self.mpr]
      intro row hrow
      rw [howner row hrow]
      exact beq_self_eq_true _
    · rw [if_neg hk, filter_withoutOwner hk, h.rows_of_owner k, List.filter_eq_nil_iff.mpr,
        List.append_nil]
      intro row hrow
      rw [howner row hrow]
      simpa using hk

end Replace

end Table

end CodeIndex.Store
