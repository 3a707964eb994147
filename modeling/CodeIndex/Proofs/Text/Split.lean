import CodeIndex.Text.Split
/-!
# Where a text is split

The last occurrence of a separator is found wherever it stands: what follows it may only not begin
the separator again (`splitLast?_append`). Last is the one that begins last, no matter whether it
overlaps with others (`splitLast?_eq_some_iff`). A text is split at all separators by taking the
part in front of the first one off (`splitChar_append`).
-/

namespace CodeIndex.Text

/-! ### The last separator -/

/-- Without its first character a separator does not occur. -/
theorem splitLast?_of_not_mem {c : Char} {cs : List Char} (sep : List Char) (h : c ∉ cs) :
    splitLast? (c :: sep) cs = none := by
  induction cs with
  | nil => rfl
  | cons d rest ih =>
    rw [List.mem_cons, not_or] at h
    have hprefix : ¬ (c :: sep).isPrefixOf (d :: rest) := by
      simp [List.isPrefixOf, h.1]
    rw [splitLast?, ih h.2, if_neg hprefix]

/-- The last separator is the one behind whose first character none begins. -/
theorem splitLast?_append {c : Char} {sep after : List Char} (before : List Char)
    (hnone : splitLast? (c :: sep) (sep ++ after) = none) :
    splitLast? (c :: sep) (before ++ c :: (sep ++ after)) = some (before, after) := by
  induction before with
  | nil =>
    have hprefix : (c :: sep).isPrefixOf (c :: (sep ++ after)) := by
      simp [List.isPrefixOf_iff_prefix]
    rw [List.nil_append, splitLast?, hnone, if_pos hprefix]
    simp
  | cons d before ih => rw [List.cons_append, splitLast?, ih]

/-- A text without a last separator has none at all. -/
theorem not_mem_of_splitLast?_eq_none {c : Char} {cs : List Char} (h : splitLast? [c] cs = none) :
    c ∉ cs := by
  induction cs with
  | nil => exact List.not_mem_nil
  | cons d rest ih =>
    rw [splitLast?] at h
    split at h
    · cases h
    · rename_i hrest
      rw [List.mem_cons, not_or]
      refine ⟨?_, ih hrest⟩
      rintro rfl
      simp [List.isPrefixOf] at h

/-- The last separator of one character is the one behind which there is none. -/
theorem splitLast?_singleton_eq_some_iff {c : Char} {cs before after : List Char} :
    splitLast? [c] cs = some (before, after) ↔ cs = before ++ c :: after ∧ c ∉ after := by
  constructor
  · intro h
    refine ⟨by rw [← append_of_splitLast? h, List.append_assoc, List.singleton_append], ?_⟩
    induction cs generalizing before with
    | nil => cases h
    | cons d rest ih =>
      rw [splitLast?] at h
      split at h
      · rename_i earlier later hrest
        obtain ⟨-, rfl⟩ := Prod.mk.inj (Option.some.inj h)
        exact ih hrest
      · rename_i hrest
        split at h
        · obtain ⟨-, rfl⟩ := Prod.mk.inj (Option.some.inj h)
          exact not_mem_of_splitLast?_eq_none hrest
        · cases h
  · rintro ⟨rfl, hnot⟩
    exact splitLast?_append before (splitLast?_of_not_mem [] hnot)

section Nonempty

variable {sep : List Char} (hsep : sep ≠ [])
include hsep

/-- A separator that is not found does not occur. -/
theorem splitLast?_eq_none_iff {cs : List Char} : splitLast? sep cs = none ↔ ¬ sep <:+: cs := by
  induction cs with
  | nil => simpa [splitLast?] using hsep
  | cons c rest ih =>
    rw [List.infix_cons_iff, not_or, ← ih, splitLast?, ← List.isPrefixOf_iff_prefix]
    cases splitLast? sep rest with
    | none => simp
    | some cut => simp

/-- No occurrence of a separator begins behind the last one. -/
theorem length_le_of_splitLast? {cs before after front back : List Char}
    (h : splitLast? sep cs = some (before, after)) (hcs : front ++ sep ++ back = cs) :
    front.length ≤ before.length := by
  induction cs generalizing before front with
  | nil => cases h
  | cons c rest ih =>
    cases front with
    | nil => exact Nat.zero_le _
    | cons d front =>
      -- The occurrence lies in the rest, so the search has found one there.
      obtain ⟨rfl, hrest⟩ := List.cons.inj hcs
      rw [splitLast?] at h
      split at h
      · rename_i earlier later hcut
        obtain ⟨rfl, rfl⟩ := Prod.mk.inj (Option.some.inj h)
        exact Nat.succ_le_succ (ih hcut hrest)
      · rename_i hnone
        exact absurd ⟨front, back, hrest⟩ ((splitLast?_eq_none_iff hsep).mp hnone)

/-- A text is cut at the occurrence of the separator that begins last. -/
theorem splitLast?_eq_some_iff {cs before after : List Char} :
    splitLast? sep cs = some (before, after) ↔ before ++ sep ++ after = cs ∧
      ∀ front back, front ++ sep ++ back = cs → front.length ≤ before.length := by
  constructor
  · intro h
    exact ⟨append_of_splitLast? h, fun _ _ hcs => length_le_of_splitLast? hsep h hcs⟩
  · rintro ⟨hcs, hlast⟩
    cases hcut : splitLast? sep cs with
    | none => exact absurd ⟨before, after, hcs⟩ ((splitLast?_eq_none_iff hsep).mp hcut)
    | some cut =>
      obtain ⟨earlier, later⟩ := cut
      have happend := append_of_splitLast? hcut
      have hlength : earlier.length = before.length :=
        Nat.le_antisymm (hlast _ _ happend) (length_le_of_splitLast? hsep hcut hcs)
      rw [← hcs, List.append_assoc, List.append_assoc] at happend
      obtain ⟨rfl, htail⟩ := List.append_inj happend hlength
      rw [List.append_cancel_left htail]

end Nonempty

/-! ### The first separator -/

theorem splitFirst?_append {sep : Char} {front : List Char} (h : sep ∉ front) (cs : List Char) :
    splitFirst? sep (front ++ sep :: cs) = some (front, cs) := by
  induction front with
  | nil => rw [List.nil_append, splitFirst?, if_pos rfl]
  | cons c front ih =>
    rw [List.mem_cons, not_or] at h
    rw [List.cons_append, splitFirst?, if_neg (Ne.symm h.1), ih h.2]
    rfl

/-! ### All separators -/

theorem splitChar_of_not_mem {sep : Char} {cs : List Char} (h : sep ∉ cs) :
    splitChar sep cs = [cs] := by
  induction cs with
  | nil => rfl
  | cons c cs ih =>
    rw [List.mem_cons, not_or] at h
    rw [splitChar, if_neg (Ne.symm h.1), ih h.2]

/-- The part in front of the first separator comes first. -/
theorem splitChar_append {sep : Char} {front : List Char} (h : sep ∉ front) (cs : List Char) :
    splitChar sep (front ++ sep :: cs) = front :: splitChar sep cs := by
  induction front with
  | nil => rw [List.nil_append, splitChar, if_pos rfl]
  | cons c front ih =>
    rw [List.mem_cons, not_or] at h
    rw [List.cons_append, splitChar, if_neg (Ne.symm h.1), ih h.2]

end CodeIndex.Text
