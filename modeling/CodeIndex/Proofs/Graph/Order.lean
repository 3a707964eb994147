import CodeIndex.Graph.Extract
/-!
# Order and repetitions

In the end the triples of a file are sorted by line and rid of repetitions. Both have a meaning of
their own: a stable sort by a number lists the elements number by number (`mergeSort_eq_byKey`), and
what `distinctOn` keeps are the first elements of each key (`distinctOn_nil_eq`).
-/

namespace CodeIndex.Graph

variable {α κ : Type}

/-! ### Sorting by a number -/

/-- The elements number by number, those with one number in their order. -/
def byKey (key : α → Nat) (xs : List α) : List α :=
  (List.range (xs.foldr (fun x n => max (key x + 1) n) 0)).flatMap fun k =>
    xs.filter fun x => key x == k

/-- Every number is below the bound up to which `byKey` looks. -/
theorem lt_bound_of_mem (key : α → Nat) (xs : List α) :
    ∀ x ∈ xs, key x < xs.foldr (fun x n => max (key x + 1) n) 0 := by
  induction xs with
  | nil => simp
  | cons y ys ih =>
    intro x hx
    rw [List.foldr_cons]
    rcases List.mem_cons.mp hx with rfl | hx
    · exact Nat.lt_of_lt_of_le (Nat.lt_succ_self _) (Nat.le_max_left _ _)
    · exact Nat.lt_of_lt_of_le (ih x hx) (Nat.le_max_right _ _)

/-- In a sorted list the elements with small numbers come first. -/
theorem filter_append_filter_of_pairwise (key : α → Nat) (n : Nat) {xs : List α}
    (h : xs.Pairwise fun a b => key a ≤ key b) :
    (xs.filter fun x => key x < n) ++ (xs.filter fun x => n ≤ key x) = xs := by
  induction xs with
  | nil => rfl
  | cons x xs ih =>
    obtain ⟨hx, hxs⟩ := List.pairwise_cons.mp h
    by_cases hlt : key x < n
    · rw [List.filter_cons_of_pos (by simpa using hlt),
        List.filter_cons_of_neg (by simpa using hlt), List.cons_append, ih hxs]
    · have hnone : (xs.filter fun y => decide (key y < n)) = [] := by
        refine List.filter_eq_nil_iff.mpr fun y hy => ?_
        have := hx y hy
        simp only [decide_eq_true_eq]
        omega
      have hall : (xs.filter fun y => decide (n ≤ key y)) = xs := by
        refine List.filter_eq_self.mpr fun y hy => ?_
        have := hx y hy
        simp only [decide_eq_true_eq]
        omega
      rw [List.filter_cons_of_neg (by simpa using hlt), List.filter_cons_of_pos (by simp; omega),
        hnone, hall, List.nil_append]

/-- A sorted list is listed number by number. -/
theorem flatMap_filter_of_pairwise (key : α → Nat) (n : Nat) {xs : List α}
    (h : xs.Pairwise fun a b => key a ≤ key b) (hlt : ∀ x ∈ xs, key x < n) :
    ((List.range n).flatMap fun k => xs.filter fun x => key x == k) = xs := by
  induction n generalizing xs with
  | zero =>
    have hnil : xs = [] :=
      List.eq_nil_iff_forall_not_mem.mpr fun x hx => absurd (hlt x hx) (Nat.not_lt_zero _)
    rw [hnil]
    rfl
  | succ n ih =>
    -- The elements below `n` are a sorted list of their own, and what is left has the number `n`.
    have hsmall := ih (h.filter fun x => decide (key x < n)) (by simp)
    have hlow : ∀ k ∈ List.range n, (xs.filter fun x => key x == k)
        = (xs.filter fun x => key x < n).filter fun x => key x == k := by
      intro k hk
      rw [List.filter_filter]
      refine List.filter_congr fun x _ => ?_
      have := List.mem_range.mp hk
      by_cases hx : key x = k
      · simp [hx, this]
      · simp [hx]
    have hlast : (xs.filter fun x => key x == n) = xs.filter fun x => n ≤ key x := by
      refine List.filter_congr fun x hx => ?_
      have := hlt x hx
      rw [Bool.eq_iff_iff, beq_iff_eq, decide_eq_true_iff]
      omega
    rw [List.range_succ, List.flatMap_append, List.flatMap_singleton, List.flatMap_def,
      List.map_congr_left hlow, ← List.flatMap_def, hsmall, hlast]
    exact filter_append_filter_of_pairwise key n h

theorem key_le_trans (key : α → Nat) (a b c : α) (hab : decide (key a ≤ key b) = true)
    (hbc : decide (key b ≤ key c) = true) : decide (key a ≤ key c) = true := by
  simp only [decide_eq_true_eq] at *
  omega

theorem key_le_total (key : α → Nat) (a b : α) :
    (decide (key a ≤ key b) || decide (key b ≤ key a)) = true := by
  simp only [Bool.or_eq_true, decide_eq_true_eq]
  omega

theorem pairwise_mergeSort_key (key : α → Nat) (xs : List α) :
    (xs.mergeSort fun a b => key a ≤ key b).Pairwise fun a b => key a ≤ key b :=
  (List.pairwise_mergeSort (key_le_trans key) (key_le_total key) xs).imp (by simp)

/-- Sorting by a number keeps the elements of each number in their order. -/
theorem filter_mergeSort (key : α → Nat) (k : Nat) (xs : List α) :
    (xs.mergeSort fun a b => key a ≤ key b).filter (fun x => key x == k)
      = xs.filter fun x => key x == k := by
  -- The elements of one number are sorted already, so the sort keeps them as a sublist.
  have hsorted : (xs.filter fun x => key x == k).Pairwise fun a b => decide (key a ≤ key b) := by
    refine List.pairwise_of_forall_mem_list fun a ha b hb => ?_
    simp only [List.mem_filter, beq_iff_eq] at ha hb
    simp [ha.2, hb.2]
  have hsub := List.sublist_mergeSort (key_le_trans key) (key_le_total key) hsorted
    List.filter_sublist
  have hfilter := hsub.filter fun x => key x == k
  rw [List.filter_filter] at hfilter
  simp only [Bool.and_self] at hfilter
  have hlength := ((List.mergeSort_perm xs fun a b => decide (key a ≤ key b)).filter
    fun x => key x == k).length_eq
  exact (hfilter.eq_of_length hlength.symm).symm

/-- A stable sort by a number lists the elements number by number. -/
theorem mergeSort_eq_byKey (key : α → Nat) (xs : List α) :
    (xs.mergeSort fun a b => key a ≤ key b) = byKey key xs := by
  rw [byKey, ← flatMap_filter_of_pairwise key _ (pairwise_mergeSort_key key xs)
    (fun x hx => lt_bound_of_mem key xs x (List.mem_mergeSort.mp hx))]
  simp only [filter_mergeSort]

/-! ### Repetitions -/

/-- What is kept are the first elements of each key that was not seen before. -/
theorem distinctOn_eq [BEq κ] [LawfulBEq κ] (key : α → κ) (seen : List κ) (xs : List α) :
    distinctOn key seen xs
      = (xs.filter fun x => !seen.contains (key x)).eraseDupsBy fun a b => key a == key b := by
  induction xs generalizing seen with
  | nil => rfl
  | cons x xs ih =>
    rw [distinctOn]
    by_cases hseen : seen.contains (key x) = true
    · rw [if_pos hseen, List.filter_cons_of_neg (by simpa using hseen), ih]
    · rw [if_neg hseen, List.filter_cons_of_pos (by simpa using hseen), List.eraseDupsBy_cons, ih,
        List.filter_filter]
      congr 2
      refine List.filter_congr fun y _ => ?_
      rw [List.contains_cons, Bool.not_or]
      simp

/-- What is kept was there, in the same order. -/
theorem distinctOn_sublist [BEq κ] (key : α → κ) (seen : List κ) (xs : List α) :
    (distinctOn key seen xs).Sublist xs := by
  induction xs generalizing seen with
  | nil => exact List.Sublist.refl _
  | cons x xs ih =>
    rw [distinctOn]
    split
    · exact (ih seen).cons x
    · exact (ih _).cons_cons x

/-- What is kept was there. -/
theorem distinctOn_subset [BEq κ] (key : α → κ) (seen : List κ) (xs : List α) :
    distinctOn key seen xs ⊆ xs :=
  (distinctOn_sublist key seen xs).subset

/-- For every element with a new key one with this key is kept: itself or one before it. -/
theorem exists_mem_distinctOn [BEq κ] [LawfulBEq κ] {R : α → α → Prop} (key : α → κ)
    {seen : List κ} {xs : List α} (hsorted : xs.Pairwise R) {x : α} (hx : x ∈ xs)
    (hnew : key x ∉ seen) : ∃ y ∈ distinctOn key seen xs, key y = key x ∧ (y = x ∨ R y x) := by
  induction xs generalizing seen with
  | nil => cases hx
  | cons z xs ih =>
    obtain ⟨hz, hxs⟩ := List.pairwise_cons.mp hsorted
    have hrest : ∀ seen', key x ∉ seen' → x ∈ xs → ∃ y ∈ distinctOn key seen' xs,
        key y = key x ∧ (y = x ∨ R y x) := fun _ hnew' hmem => ih hxs hmem hnew'
    rw [distinctOn]
    split
    · rename_i hseen
      rcases List.mem_cons.mp hx with rfl | hx
      · exact absurd (List.contains_iff_mem.mp hseen) hnew
      · exact hrest seen hnew hx
    · by_cases hkey : key x = key z
      · refine ⟨z, List.mem_cons_self, hkey.symm, ?_⟩
        exact (List.mem_cons.mp hx).imp Eq.symm (hz x)
      · have hmem : x ∈ xs := (List.mem_cons.mp hx).resolve_left fun h => hkey (by rw [h])
        obtain ⟨y, hy, hy'⟩ := hrest (key z :: seen)
          (fun h => (List.mem_cons.mp h).elim hkey hnew) hmem
        exact ⟨y, List.mem_cons_of_mem _ hy, hy'⟩

/-- What is kept has keys of its own, none of which was seen before. -/
theorem nodup_distinctOn [BEq κ] [LawfulBEq κ] (key : α → κ) (seen : List κ) (xs : List α) :
    ((distinctOn key seen xs).map key).Nodup ∧ ∀ x ∈ distinctOn key seen xs, key x ∉ seen := by
  induction xs generalizing seen with
  | nil => exact ⟨List.nodup_nil, by simp [distinctOn]⟩
  | cons x xs ih =>
    simp only [distinctOn]
    by_cases hseen : seen.contains (key x) = true
    · rw [if_pos hseen]
      exact ih seen
    · obtain ⟨hnodup, hnew⟩ := ih (key x :: seen)
      rw [if_neg hseen]
      constructor
      · rw [List.map_cons, List.nodup_cons]
        refine ⟨fun hmem => ?_, hnodup⟩
        obtain ⟨y, hy, hkey⟩ := List.mem_map.mp hmem
        exact hnew y hy (hkey ▸ List.mem_cons_self ..)
      · intro y hy
        rcases List.mem_cons.mp hy with rfl | hy
        · simpa using hseen
        · exact fun hmem => hnew y hy (List.mem_cons_of_mem _ hmem)

theorem distinctOn_nil_eq [BEq κ] [LawfulBEq κ] (key : α → κ) (xs : List α) :
    distinctOn key [] xs = xs.eraseDupsBy fun a b => key a == key b := by
  rw [distinctOn_eq, List.filter_eq_self.mpr (by simp)]

end CodeIndex.Graph
