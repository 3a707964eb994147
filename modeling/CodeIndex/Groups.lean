/-!
# Groups

A list cut into groups of one size, of which the last may be smaller. The groups in order are the
list again (`flatten_groups`), and none of them is empty.
-/

namespace CodeIndex

/-- Groups of `n` elements; the last one may be smaller. Nothing gives no group. -/
def groups {α : Type} (n : Nat) (xs : List α) : List (List α) :=
  match xs with
  | [] => []
  | x :: rest => (x :: rest.take (n - 1)) :: groups n (rest.drop (n - 1))
termination_by xs.length
decreasing_by
  simp only [List.length_drop, List.length_cons]
  omega

/-- The groups in order are the list again. -/
theorem flatten_groups {α : Type} (n : Nat) (xs : List α) : (groups n xs).flatten = xs := by
  induction xs using groups.induct n with
  | case1 => simp [groups]
  | case2 x rest ih =>
    rw [groups]
    simp [ih]

/-- Only nothing gives no group. -/
theorem eq_nil_of_groups_eq_nil {α : Type} {n : Nat} {xs : List α} (h : groups n xs = []) :
    xs = [] := by
  rw [← flatten_groups n xs, h, List.flatten_nil]

/-- The first group is the front of the list, and the other ones are the groups of the rest. -/
theorem groups_eq_cons {α : Type} {n : Nat} (hn : 0 < n) {xs group : List α}
    {later : List (List α)} (h : groups n xs = group :: later) :
    group = xs.take n ∧ later = groups n (xs.drop n) := by
  cases xs with
  | nil =>
    rw [groups] at h
    cases h
  | cons x rest =>
    obtain ⟨m, rfl⟩ : ∃ m, n = m + 1 := ⟨n - 1, by omega⟩
    rw [groups] at h
    cases h
    exact ⟨rfl, rfl⟩

end CodeIndex
