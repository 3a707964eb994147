import CodeIndex.Keyed
/-!
# Putting into keyed lists

Altering a key that is there maps over the list, and a new key goes to the end. Putting is altering
to a constant, so up to order it takes the old element of the key out and the new one in.
-/

namespace CodeIndex.Keyed

variable {α : Type} (key : α → String)

/-! ### Looking up -/

/-- Where the keys are distinct, an element is found exactly under its own key. -/
theorem lookUp_eq_some_iff {k : String} {x : α} {xs : List α} (hnodup : (xs.map key).Nodup) :
    lookUp key k xs = some x ↔ x ∈ xs ∧ key x = k := by
  induction xs with
  | nil => simp [lookUp]
  | cons y ys ih =>
    rw [List.map_cons, List.nodup_cons] at hnodup
    rw [lookUp, List.find?_cons, List.mem_cons]
    by_cases hy : key y = k
    · have hrest : ¬ (x ∈ ys ∧ key x = k) := by
        rintro ⟨hx, hxk⟩
        exact hnodup.1 (hy.trans hxk.symm ▸ List.mem_map_of_mem hx)
      rw [or_and_right, or_iff_left hrest]
      simp only [hy, beq_self_eq_true, Option.some.injEq]
      exact ⟨fun h => ⟨h.symm, h ▸ hy⟩, fun h => h.1.symm⟩
    · have hne : ¬ (x = y ∧ key x = k) := by
        rintro ⟨rfl, hxk⟩
        exact hy hxk
      rw [beq_false_of_ne hy, or_and_right, or_iff_right hne]
      exact ih hnodup.2

theorem isSome_lookUp_iff {k : String} {xs : List α} :
    (lookUp key k xs).isSome = true ↔ k ∈ xs.map key := by
  simp [lookUp]

/-! ### Altering -/

theorem alter_of_not_mem {k : String} (f : α → α) (x : α) {xs : List α} (h : k ∉ xs.map key) :
    alter key k f x xs = xs ++ [x] := by
  induction xs with
  | nil => rfl
  | cons y ys ih =>
    rw [List.map_cons, List.mem_cons, not_or] at h
    rw [alter, if_neg (Ne.symm h.1), ih h.2, List.cons_append]

theorem alter_of_mem {k : String} (f : α → α) (x : α) {xs : List α} (hnodup : (xs.map key).Nodup)
    (h : k ∈ xs.map key) :
    alter key k f x xs = xs.map fun y => if key y = k then f y else y := by
  induction xs with
  | nil => cases h
  | cons y ys ih =>
    rw [List.map_cons, List.nodup_cons] at hnodup
    by_cases hy : key y = k
    · -- No later element has the key.
      have hrest : ∀ z ∈ ys, (if key z = k then f z else z) = z := by
        intro z hz
        refine if_neg fun hzk => hnodup.1 ?_
        rw [hy, ← hzk]
        exact List.mem_map_of_mem hz
      rw [alter, if_pos hy, List.map_cons, if_pos hy, List.map_congr_left hrest, List.map_id']
    · have hmem : k ∈ ys.map key := by
        rw [List.map_cons, List.mem_cons] at h
        exact h.resolve_left (Ne.symm hy)
      rw [alter, if_neg hy, List.map_cons, if_neg hy, ih hnodup.2 hmem]

theorem mem_alter {k : String} {f : α → α} {x y : α} {xs : List α}
    (h : y ∈ alter key k f x xs) : y = x ∨ y ∈ xs ∨ ∃ z ∈ xs, y = f z := by
  induction xs with
  | nil => exact Or.inl (List.mem_singleton.mp h)
  | cons z zs ih =>
    rw [alter] at h
    by_cases hz : key z = k
    · rw [if_pos hz] at h
      rcases List.mem_cons.mp h with rfl | h
      · exact Or.inr (Or.inr ⟨z, List.mem_cons_self .., rfl⟩)
      · exact Or.inr (Or.inl (List.mem_cons_of_mem _ h))
    · rw [if_neg hz] at h
      rcases List.mem_cons.mp h with rfl | h
      · exact Or.inr (Or.inl (List.mem_cons_self ..))
      · rcases ih h with hx | hmem | ⟨w, hw, hy⟩
        · exact Or.inl hx
        · exact Or.inr (Or.inl (List.mem_cons_of_mem _ hmem))
        · exact Or.inr (Or.inr ⟨w, List.mem_cons_of_mem _ hw, hy⟩)

/-- The altered element is found under its key, and under every other key what was there. -/
theorem lookUp_alter {k : String} {f : α → α} {x : α} (hf : ∀ y, key y = k → key (f y) = k)
    (hx : key x = k) (k' : String) (xs : List α) :
    lookUp key k' (alter key k f x xs)
      = if k' = k then some ((lookUp key k xs).elim x f) else lookUp key k' xs := by
  induction xs with
  | nil =>
    by_cases h : k' = k
    · simp [alter, lookUp, hx, h]
    · simp [alter, lookUp, hx, h, Ne.symm h]
  | cons y ys ih =>
    rw [alter]
    by_cases hy : key y = k
    · by_cases h : k' = k
      · simp [lookUp, hy, hf y hy, h]
      · simp [lookUp, hy, hf y hy, h, Ne.symm h]
    · have hbeq : (key y == k) = false := beq_eq_false_iff_ne.mpr hy
      rw [if_neg hy, lookUp, List.find?_cons, ← lookUp, ih]
      by_cases h : k' = k
      · simp [lookUp, h, hbeq]
      · simp [lookUp, h, List.find?_cons]

/-- Altering what is not the key leaves the keys distinct. -/
theorem nodup_alter {k : String} {f : α → α} {x : α} {xs : List α}
    (hf : ∀ y, key y = k → key (f y) = key y) (hx : key x = k) (hnodup : (xs.map key).Nodup) :
    ((alter key k f x xs).map key).Nodup := by
  by_cases hmem : k ∈ xs.map key
  · have hkeys : ∀ y ∈ xs, (key ∘ fun y => if key y = k then f y else y) y = key y := by
      intro y _
      show key (if key y = k then f y else y) = key y
      split
      · exact hf y ‹_›
      · rfl
    rw [alter_of_mem key f x hnodup hmem, List.map_map, List.map_congr_left hkeys]
    exact hnodup
  · rw [alter_of_not_mem key f x hmem, List.map_append, List.nodup_append]
    refine ⟨hnodup, by simp, ?_⟩
    rintro k' hk' _ hsingle rfl
    rw [List.map_singleton, List.mem_singleton, hx] at hsingle
    exact hmem (hsingle ▸ hk')

/-! ### Putting -/

theorem put_eq_alter (x : α) (xs : List α) :
    put key x xs = alter key (key x) (fun _ => x) x xs := by
  induction xs with
  | nil => rfl
  | cons y ys ih => rw [put, alter, ih]

theorem nodup_put (x : α) {xs : List α} (hnodup : (xs.map key).Nodup) :
    ((put key x xs).map key).Nodup := by
  rw [put_eq_alter]
  exact nodup_alter key (fun _ hy => hy.symm) rfl hnodup

theorem put_of_not_mem {x : α} {xs : List α} (h : key x ∉ xs.map key) :
    put key x xs = xs ++ [x] := by
  rw [put_eq_alter, alter_of_not_mem key _ x h]

theorem lookUp_put (k : String) (x : α) (xs : List α) :
    lookUp key k (put key x xs) = if key x = k then some x else lookUp key k xs := by
  induction xs with
  | nil => by_cases h : key x = k <;> simp [put, lookUp, h]
  | cons y ys ih =>
    rw [put]
    by_cases hy : key y = key x
    · rw [if_pos hy]
      by_cases h : key x = k
      · simp [lookUp, h]
      · simp [lookUp, h, hy]
    · rw [if_neg hy, lookUp, List.find?_cons]
      cases hk : key y == k with
      | true =>
        have hne : key x ≠ k := fun h => hy ((beq_iff_eq.mp hk).trans h.symm)
        simp [lookUp, hk, hne]
      | false =>
        simp only
        rw [← lookUp, ih]
        simp [lookUp, hk]

/-- Up to order, the element put replaces the one with its key. -/
theorem put_perm (x : α) {xs : List α} (hnodup : (xs.map key).Nodup) :
    (put key x xs).Perm ((xs.filter fun y => key y != key x) ++ [x]) := by
  induction xs with
  | nil => exact List.Perm.refl _
  | cons y ys ih =>
    rw [List.map_cons, List.nodup_cons] at hnodup
    by_cases hy : key y = key x
    · have hall : ys.filter (fun z => key z != key x) = ys := by
        refine List.filter_eq_self.mpr fun z hz => bne_iff_ne.mpr fun hzx => hnodup.1 ?_
        rw [hy, ← hzx]
        exact List.mem_map_of_mem hz
      rw [put, if_pos hy, List.filter_cons_of_neg (by simpa using hy), hall]
      exact (List.perm_append_singleton x ys).symm
    · rw [put, if_neg hy, List.filter_cons_of_pos (by simpa using hy), List.cons_append]
      exact (ih hnodup.2).cons y

/-! ### Taking out -/

theorem lookUp_erase (k k' : String) (xs : List α) :
    lookUp key k' (erase key k xs) = if k' = k then none else lookUp key k' xs := by
  rw [lookUp, erase, List.find?_filter]
  by_cases h : k' = k
  · rw [if_pos h, List.find?_eq_none]
    simp [h]
  · rw [if_neg h, lookUp]
    refine congrArg (List.find? · xs) (funext fun x => ?_)
    by_cases hx : key x = k' <;> simp [hx, h]

end CodeIndex.Keyed
