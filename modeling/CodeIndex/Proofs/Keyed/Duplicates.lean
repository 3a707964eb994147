import CodeIndex.Proofs.Keyed
import Mathlib.Data.List.Induction
import Mathlib.Data.List.Nodup
/-!
# The last element of each key, in the order of the first

`dedupByKey_keeps_last`: removing duplicates leaves one element for each key, the last one, and
orders them by where their keys come first. Nothing else is left, a list without duplicates stays
as it is, and there is nothing to remove from the result.

Two structures are filled together and emptied together. While they are filled, the order has the
keys met so far without repetitions, and the table has the last element of each (`Met.IsOf`). That
the order has no key twice is what lets the table be emptied along it: each key finds its element
still there (`Met.takeOut_of_nodup`).
-/

namespace CodeIndex.Keyed

/-! ### First occurrences -/

section Keys

variable {k : String} {ks : List String}

/-- One more element at the end is a first occurrence if it did not come before. -/
theorem eraseDups_concat (ks : List String) (k : String) :
    (ks ++ [k]).eraseDups = if k ∈ ks then ks.eraseDups else ks.eraseDups ++ [k] := by
  rw [List.eraseDups_append, List.cons_removeAll, List.nil_removeAll]
  by_cases h : k ∈ ks <;> simp [h, List.eraseDups_cons]

theorem nodup_eraseDups (ks : List String) : ks.eraseDups.Nodup := by
  induction ks using List.reverseRecOn with
  | nil => exact List.nodup_nil
  | append_singleton ks k ih =>
    rw [eraseDups_concat]
    split
    · exact ih
    · have hnew : k ∉ ks.eraseDups := fun h => ‹k ∉ ks› (List.mem_eraseDups.mp h)
      exact List.nodup_append_comm.mp (List.nodup_cons.mpr ⟨hnew, ih⟩)

theorem eraseDups_of_nodup (h : ks.Nodup) : ks.eraseDups = ks := by
  induction ks using List.reverseRecOn with
  | nil => rfl
  | append_singleton ks k ih =>
    have hswap : (k :: ks).Nodup := List.nodup_append_comm.mp h
    obtain ⟨hnew, hks⟩ := List.nodup_cons.mp hswap
    rw [eraseDups_concat, if_neg hnew, ih hks]

end Keys

variable {α : Type} (key : α → String) {xs : List α} {x : α} {k : String}

/-! ### Last occurrences -/

theorem findRev?_concat (p : α → Bool) (xs : List α) (x : α) :
    (xs ++ [x]).findRev? p = if p x then some x else xs.findRev? p := by
  rw [List.findRev?_eq_find?_reverse, List.findRev?_eq_find?_reverse, List.reverse_concat,
    List.find?_cons]
  cases p x <;> rfl

theorem key_of_findRev? (h : xs.findRev? (key · == k) = some x) : key x = k := by
  rw [List.findRev?_eq_find?_reverse] at h
  exact beq_iff_eq.mp (List.find?_some (p := fun x => key x == k) h)

theorem isSome_findRev?_iff : (xs.findRev? (key · == k)).isSome ↔ k ∈ xs.map key := by
  simp [List.findRev?_eq_find?_reverse]

/-- Where the keys are distinct, each element is the last one with its key. -/
theorem findRev?_of_nodup (hnodup : (xs.map key).Nodup) (hx : x ∈ xs) :
    xs.findRev? (key · == key x) = some x := by
  have hreverse : (xs.reverse.map key).Nodup := by
    rw [List.map_reverse]
    exact List.nodup_reverse.mpr hnodup
  rw [List.findRev?_eq_find?_reverse]
  exact (lookUp_eq_some_iff key hreverse).mpr ⟨List.mem_reverse.mpr hx, rfl⟩

/-! ### Filling and emptying -/

namespace Met

variable {m : Met α}

/-- The order and the table are those of the elements of a list. -/
structure IsOf (xs : List α) (m : Met α) : Prop where
  order : m.order = (xs.map key).eraseDups
  latest : ∀ k, lookUp (·.1) k m.latest = (xs.findRev? (key · == k)).map fun x => (k, x)

theorem isOf_empty : IsOf key [] .empty where
  order := rfl
  latest := fun _ => rfl

/-- The table lacks a key exactly as long as no element had it. -/
theorem IsOf.isNone_lookUp_iff (h : m.IsOf key xs) (k : String) :
    (lookUp (·.1) k m.latest).isNone ↔ k ∉ xs.map key := by
  rw [h.latest, Option.isNone_map, ← isSome_findRev?_iff, Option.not_isSome_iff_eq_none,
    Option.isNone_iff_eq_none]

theorem IsOf.add (h : m.IsOf key xs) (x : α) : (m.add key x).IsOf key (xs ++ [x]) where
  order := by
    rw [List.map_append, List.map_singleton, eraseDups_concat, ← h.order]
    simp only [Met.add, h.isNone_lookUp_iff, ite_not]
  latest := by
    intro k
    rw [Met.add, lookUp_put, findRev?_concat, h.latest]
    by_cases hk : key x = k <;> simp [hk]

theorem isOf_foldl (xs : List α) : (xs.foldl (add key) .empty).IsOf key xs := by
  -- From the last element: the invariant is about the elements met before it.
  induction xs using List.reverseRecOn with
  | nil => exact isOf_empty key
  | append_singleton xs x ih =>
    rw [List.foldl_concat]
    exact ih.add key x

/-- Along keys that are distinct, what was taken out before is never missed. -/
theorem takeOut_of_nodup {ks : List String} (hnodup : ks.Nodup) (latest : List (String × α)) :
    takeOut ks latest = ks.filterMap fun k => (lookUp (·.1) k latest).map (·.2) := by
  induction ks generalizing latest with
  | nil => rfl
  | cons k ks ih =>
    obtain ⟨hk, hks⟩ := List.nodup_cons.mp hnodup
    have hothers : ∀ k' ∈ ks, (lookUp (·.1) k' (erase (·.1) k latest)).map (·.2)
        = (lookUp (·.1) k' latest).map (·.2) := by
      intro k' hk'
      rw [lookUp_erase, if_neg (ne_of_mem_of_not_mem hk' hk)]
    rw [takeOut, ih hks, List.filterMap_congr hothers, List.filterMap_cons]
    cases lookUp (·.1) k latest <;> rfl

end Met

/-! ### What is kept -/

/-- The keys in the order of their first occurrences, with the last occurrence of each. -/
theorem dedupByKey_eq (xs : List α) :
    dedupByKey key xs = (xs.map key).eraseDups.filterMap fun k => xs.findRev? (key · == k) := by
  have hmet := Met.isOf_foldl key xs
  rw [dedupByKey, Met.takeOut_of_nodup (hmet.order ▸ nodup_eraseDups _), hmet.order]
  refine List.filterMap_congr fun k _ => ?_
  rw [hmet.latest, Option.map_map]
  exact Option.map_id_apply

theorem map_dedupByKey (xs : List α) :
    (dedupByKey key xs).map key = (xs.map key).eraseDups := by
  have hkeys : ∀ k ∈ (xs.map key).eraseDups,
      (xs.findRev? (key · == k)).map key = some k := by
    intro k hk
    rw [List.mem_eraseDups, ← isSome_findRev?_iff] at hk
    obtain ⟨x, hx⟩ := Option.isSome_iff_exists.mp hk
    rw [hx, Option.map_some, key_of_findRev? key hx]
  rw [dedupByKey_eq, List.map_filterMap, List.filterMap_congr hkeys, List.filterMap_some]

theorem nodup_dedupByKey (xs : List α) : ((dedupByKey key xs).map key).Nodup := by
  rw [map_dedupByKey]
  exact nodup_eraseDups _

theorem lookUp_dedupByKey (k : String) (xs : List α) :
    lookUp key k (dedupByKey key xs) = xs.findRev? (key · == k) := by
  refine Option.ext fun x => ?_
  rw [lookUp_eq_some_iff key (nodup_dedupByKey key xs), dedupByKey_eq, List.mem_filterMap]
  constructor
  · rintro ⟨⟨k', -, hx⟩, rfl⟩
    obtain rfl := key_of_findRev? key hx
    exact hx
  · intro hx
    have hk : k ∈ xs.map key := (isSome_findRev?_iff key).mp (hx ▸ rfl)
    exact ⟨⟨k, List.mem_eraseDups.mpr hk, hx⟩, key_of_findRev? key hx⟩

/-- Nothing is removed from a list without duplicates. -/
theorem dedupByKey_of_nodup (h : (xs.map key).Nodup) : dedupByKey key xs = xs := by
  have hlast : ∀ x ∈ xs, ((fun k => xs.findRev? (key · == k)) ∘ key) x = some x :=
    fun x hx => findRev?_of_nodup key h hx
  rw [dedupByKey_eq, eraseDups_of_nodup h, List.filterMap_map, List.filterMap_congr hlast,
    List.filterMap_some]

/-- **Duplicates.** What is kept has distinct keys: those of the list, in the order in which they
come first. Under each key it has the last element of the list with that key, and under no other key
anything. Exactly the lists without duplicates are kept as they are, so to remove duplicates again
changes nothing. -/
theorem dedupByKey_keeps_last (key : α → String) (xs : List α) :
    let kept := dedupByKey key xs
    (kept.map key).Nodup ∧
    kept.map key = (xs.map key).eraseDups ∧
    (∀ k, lookUp key k kept = xs.findRev? (key · == k)) ∧
    (kept = xs ↔ (xs.map key).Nodup) ∧
    dedupByKey key kept = kept := by
  intro kept
  have hnodup : (kept.map key).Nodup := nodup_dedupByKey key xs
  refine ⟨hnodup, map_dedupByKey key xs, fun k => lookUp_dedupByKey key k xs, ?_,
    dedupByKey_of_nodup key hnodup⟩
  exact ⟨fun h => h ▸ hnodup, dedupByKey_of_nodup key⟩

example : dedupByKey (·.1) [("a", 1), ("b", 2), ("a", 3), ("c", 4)]
    = [("a", 3), ("b", 2), ("c", 4)] := by decide

end CodeIndex.Keyed
