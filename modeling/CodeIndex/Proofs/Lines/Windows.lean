import CodeIndex.LineIndex
/-!
# Trimming and windows

Trimming a range drops nothing but blank lines (`isBlankLine_of_trim_none`, `trim_spec`), and the
windows of a range are consecutive, not empty, and take up the whole range (`windows_tiles`). A
window keeps to both of its limits unless it is a single line (`within_windows`), it ends early only
where its next line has no room (`maximal_growWindow`), and it is marked exactly when its own
estimate exceeds the budget (`oversized_windows`). The texts of spans that follow one another make
up the text of their range (`join_slices`).

Nothing here depends on a text: all of it holds of every line index.
-/

namespace CodeIndex.LineIndex

variable (index : LineIndex)

/-! ### Ranges inside the text -/

theorem clampStart_eq {start : Nat} (h : 1 ≤ start) : clampStart start = start :=
  Nat.max_eq_left h

variable {index} in
theorem clampStop_eq {stop : Nat} (h : stop ≤ index.size) : index.clampStop stop = stop :=
  Nat.min_eq_left h

/-! ### Trimming -/

/-- What the search downwards passes over is blank, and it stays in its range. -/
theorem skipBlankDown_spec (line count : Nat) :
    line ≤ index.skipBlankDown line count ∧ index.skipBlankDown line count ≤ line + count ∧
    ∀ l, line ≤ l → l < index.skipBlankDown line count → index.isBlankLine l = true := by
  induction count generalizing line with
  | zero =>
    rw [skipBlankDown]
    exact ⟨Nat.le_refl _, Nat.le_refl _, fun l h1 h2 => absurd h1 (Nat.not_le.mpr h2)⟩
  | succ count ih =>
    rw [skipBlankDown]
    by_cases hblank : index.isBlankLine line = true
    · rw [if_pos hblank]
      obtain ⟨hle, hge, hskip⟩ := ih (line + 1)
      refine ⟨by omega, by omega, ?_⟩
      intro l h1 h2
      by_cases hl : l = line
      · rw [hl]; exact hblank
      · exact hskip l (by omega) h2
    · rw [if_neg hblank]
      exact ⟨Nat.le_refl _, by omega, fun l h1 h2 => absurd h1 (Nat.not_le.mpr h2)⟩

/-- What the search upwards passes over is blank, and it stays in its range. -/
theorem skipBlankUp_spec (line count : Nat) (hcount : count ≤ line) :
    index.skipBlankUp line count ≤ line ∧ line ≤ index.skipBlankUp line count + count ∧
    ∀ l, index.skipBlankUp line count < l → l ≤ line → index.isBlankLine l = true := by
  induction count generalizing line with
  | zero =>
    rw [skipBlankUp]
    exact ⟨Nat.le_refl _, Nat.le_refl _, fun l h1 h2 => absurd h2 (Nat.not_le.mpr h1)⟩
  | succ count ih =>
    rw [skipBlankUp]
    by_cases hblank : index.isBlankLine line = true
    · rw [if_pos hblank]
      obtain ⟨hle, hge, hskip⟩ := ih (line - 1) (by omega)
      refine ⟨by omega, by omega, ?_⟩
      intro l h1 h2
      by_cases hl : l = line
      · rw [hl]; exact hblank
      · exact hskip l h1 (by omega)
    · rw [if_neg hblank]
      exact ⟨Nat.le_refl _, by omega, fun l h1 h2 => absurd h2 (Nat.not_le.mpr h1)⟩

/-- A search downwards that ends inside its range ends at a line that is not blank. -/
theorem isBlankLine_skipBlankDown (line count : Nat)
    (h : index.skipBlankDown line count < line + count) :
    index.isBlankLine (index.skipBlankDown line count) = false := by
  induction count generalizing line with
  | zero => exact absurd h (Nat.lt_irrefl _)
  | succ count ih =>
    rw [skipBlankDown] at h ⊢
    by_cases hblank : index.isBlankLine line = true
    · rw [if_pos hblank] at h ⊢
      exact ih (line + 1) (by omega)
    · rw [if_neg hblank]
      exact Bool.eq_false_iff.mpr hblank

/-- A search upwards ends at a line that is not blank, if there is one in its range. -/
theorem isBlankLine_skipBlankUp {first line count : Nat} (hcount : count ≤ line)
    (hfirst : line - count ≤ first) (hline : first ≤ line)
    (h : index.isBlankLine first = false) :
    index.isBlankLine (index.skipBlankUp line count) = false := by
  induction count generalizing line with
  | zero =>
    obtain rfl : first = line := by omega
    exact h
  | succ count ih =>
    rw [skipBlankUp]
    by_cases hblank : index.isBlankLine line = true
    · rw [if_pos hblank]
      have hne : first ≠ line := by
        rintro rfl
        exact Bool.false_ne_true (h.symm.trans hblank)
      exact ih (by omega) (by omega) (by omega)
    · rw [if_neg hblank]
      exact Bool.eq_false_iff.mpr hblank

/-- A range with nothing left after trimming was blank. -/
theorem isBlankLine_of_trim_none {start stop : Nat} (h : index.trim start stop = none) (l : Nat)
    (hstart : clampStart start ≤ l) (hstop : l ≤ index.clampStop stop) :
    index.isBlankLine l = true := by
  obtain ⟨-, hge, hskip⟩ := index.skipBlankDown_spec (clampStart start)
    (index.clampStop stop + 1 - clampStart start)
  unfold trim at h
  simp only at h
  split at h
  · cases h
  · exact hskip l hstart (by omega)

/-- A trimmed range lies in the range, and the lines it leaves out are blank. -/
theorem trim_spec {start stop first last : Nat} (h : index.trim start stop = some (first, last)) :
    clampStart start ≤ first ∧ first ≤ last ∧ last ≤ index.clampStop stop ∧
    (∀ l, clampStart start ≤ l → l < first → index.isBlankLine l = true) ∧
    (∀ l, last < l → l ≤ index.clampStop stop → index.isBlankLine l = true) := by
  obtain ⟨hle, -, hdown⟩ := index.skipBlankDown_spec (clampStart start)
    (index.clampStop stop + 1 - clampStart start)
  unfold trim at h
  simp only at h
  split at h
  · rename_i hfirst
    simp only [Option.some.injEq, Prod.mk.injEq] at h
    obtain ⟨rfl, rfl⟩ := h
    have hup := index.skipBlankUp_spec (index.clampStop stop)
      (index.clampStop stop - index.skipBlankDown (clampStart start)
        (index.clampStop stop + 1 - clampStart start)) (Nat.sub_le _ _)
    exact ⟨hle, by omega, hup.1, hdown, hup.2.2⟩
  · cases h

/-- A trimmed range begins and ends with lines that are not blank. -/
theorem isBlankLine_of_trim {start stop first last : Nat}
    (h : index.trim start stop = some (first, last)) :
    index.isBlankLine first = false ∧ index.isBlankLine last = false := by
  unfold trim at h
  simp only at h
  split at h
  · rename_i hfirst
    simp only [Option.some.injEq, Prod.mk.injEq] at h
    obtain ⟨rfl, rfl⟩ := h
    have hblank := index.isBlankLine_skipBlankDown (clampStart start)
      (index.clampStop stop + 1 - clampStart start) (by omega)
    exact ⟨hblank, index.isBlankLine_skipBlankUp (Nat.sub_le _ _) (by omega) hfirst hblank⟩
  · cases h

/-! ### Windows -/

/-- `spans` are not empty and follow one another from line `start` to line `stop`. -/
def Tiles : Nat → Nat → List LineSpan → Prop
  | start, stop, [] => stop < start
  | start, stop, span :: spans =>
    span.start = start ∧ start ≤ span.stop ∧ span.stop ≤ stop ∧ Tiles (span.stop + 1) stop spans

/-- No span is empty. -/
theorem Tiles.le_of_mem {start stop : Nat} {spans : List LineSpan} (h : Tiles start stop spans)
    {span : LineSpan} (hspan : span ∈ spans) : span.start ≤ span.stop := by
  induction spans generalizing start with
  | nil => cases hspan
  | cons first spans ih =>
    obtain ⟨rfl, hle, -, hrest⟩ := h
    rcases List.mem_cons.mp hspan with rfl | hspan
    · exact hle
    · exact ih hrest hspan

/-- A window takes in at most as many lines as it may. -/
theorem growWindow_le (maxLines maxTokens start stop count : Nat) :
    index.growWindow maxLines maxTokens start stop count ≤ stop + count := by
  induction count generalizing stop with
  | zero => exact Nat.le_refl _
  | succ count ih =>
    rw [growWindow]
    split
    · have := ih (stop + 1)
      omega
    · omega

theorem windowsFrom_tiles (maxLines maxTokens start last : Nat) :
    Tiles start last (index.windowsFrom maxLines maxTokens start last) := by
  induction start using windowsFrom.induct index maxLines maxTokens last with
  | case1 start hle stop ih =>
    -- A window has its first line whatever the budget is, and never grows past the last one.
    have hge := index.le_growWindow maxLines maxTokens start start (last - start)
    have hlast := index.growWindow_le maxLines maxTokens start start (last - start)
    rw [windowsFrom, if_pos hle]
    refine ⟨rfl, hge, ?_, ih⟩
    show index.growWindow maxLines maxTokens start start (last - start) ≤ last
    omega
  | case2 start hle =>
    rw [windowsFrom, if_neg hle]
    exact Nat.not_le.mp hle

/-- The windows of a range inside the text follow one another and take up the range. -/
theorem windows_tiles (start stop maxLines maxTokens : Nat) :
    Tiles (clampStart start) (index.clampStop stop)
      (index.windows start stop maxLines maxTokens) :=
  index.windowsFrom_tiles _ _ _ _

/-- The span has at most `maxLines` lines, and within the budget if it has more than one. -/
def Within (maxLines maxTokens start stop : Nat) : Prop :=
  stop < start + maxLines ∧ (start < stop → index.tokens start stop ≤ maxTokens)

/-- A window that keeps to its limits keeps to them while it grows. -/
theorem within_growWindow (maxLines maxTokens start stop count : Nat)
    (h : index.Within maxLines maxTokens start stop) :
    index.Within maxLines maxTokens start
      (index.growWindow maxLines maxTokens start stop count) := by
  induction count generalizing stop with
  | zero => exact h
  | succ count ih =>
    rw [growWindow]
    split
    · rename_i hgrow
      simp only [Bool.and_eq_true, decide_eq_true_eq] at hgrow
      exact ih (stop + 1) ⟨by omega, fun _ => hgrow.2⟩
    · exact h

/-- A window that ends before the end of its range has no room for the next line. -/
theorem maximal_growWindow (maxLines maxTokens start stop count : Nat)
    (h : index.growWindow maxLines maxTokens start stop count < stop + count) :
    index.growWindow maxLines maxTokens start stop count + 1 - start < maxLines →
      maxTokens < index.tokens start
        (index.growWindow maxLines maxTokens start stop count + 1) := by
  induction count generalizing stop with
  | zero => exact absurd h (Nat.lt_irrefl _)
  | succ count ih =>
    rw [growWindow] at h ⊢
    split at h
    · rename_i hgrow
      rw [if_pos hgrow]
      exact ih (stop + 1) (by omega)
    · rename_i hstop
      rw [if_neg hstop]
      intro hlines
      simp only [Bool.and_eq_true, decide_eq_true_eq, not_and, Nat.not_le] at hstop
      exact hstop hlines

theorem within_windowsFrom {maxLines : Nat} (hmax : 1 ≤ maxLines) (maxTokens start last : Nat) :
    ∀ span ∈ index.windowsFrom maxLines maxTokens start last,
      index.Within maxLines maxTokens span.start span.stop := by
  induction start using windowsFrom.induct index maxLines maxTokens last with
  | case1 start hle stop ih =>
    rw [windowsFrom, if_pos hle]
    intro span hspan
    rcases List.mem_cons.mp hspan with rfl | hspan
    · -- A window begins with one line, whatever the budget is.
      have hline : index.Within maxLines maxTokens start start :=
        ⟨by omega, fun h => absurd h (Nat.lt_irrefl start)⟩
      exact index.within_growWindow maxLines maxTokens start start _ hline
    · exact ih span hspan
  | case2 start hle =>
    rw [windowsFrom, if_neg hle]
    simp

/-- Every window keeps to its limits; a line over the budget stands alone. -/
theorem within_windows (start stop : Nat) {maxLines : Nat} (hmax : 1 ≤ maxLines)
    (maxTokens : Nat) :
    ∀ span ∈ index.windows start stop maxLines maxTokens,
      index.Within maxLines maxTokens span.start span.stop := by
  rw [windows, Nat.max_eq_left hmax]
  exact index.within_windowsFrom hmax maxTokens _ _

theorem oversized_windowsFrom (maxLines maxTokens start last : Nat) :
    ∀ span ∈ index.windowsFrom maxLines maxTokens start last,
      span.oversized = decide (maxTokens < index.tokens span.start span.stop) := by
  induction start using windowsFrom.induct index maxLines maxTokens last with
  | case1 start hle stop ih =>
    rw [windowsFrom, if_pos hle]
    intro span hspan
    rcases List.mem_cons.mp hspan with rfl | hspan
    · rfl
    · exact ih span hspan
  | case2 start hle =>
    rw [windowsFrom, if_neg hle]
    simp

/-- A window is marked exactly when its estimate exceeds the budget. -/
theorem oversized_windows (start stop maxLines maxTokens : Nat) :
    ∀ span ∈ index.windows start stop maxLines maxTokens,
      span.oversized = decide (maxTokens < index.tokens span.start span.stop) :=
  index.oversized_windowsFrom _ _ _ _

/-! ### Texts of spans -/

/-- A slice is the text of its lines, as far as there are any. -/
theorem slice_eq_join (start stop : Nat) :
    index.slice start stop = String.join ((index.lines.toList.take stop).drop (start - 1)) := by
  have hstart : clampStart start - 1 = start - 1 := by
    unfold clampStart
    omega
  have htake : index.lines.toList.take (index.clampStop stop) = index.lines.toList.take stop := by
    rw [clampStop, size, ← Array.length_toList, List.take_eq_take_iff]
    omega
  rw [slice, Array.toList_extract, List.extract_eq_take_drop, ← List.drop_take, htake, hstart]

/-- The texts of two ranges that follow one another make up the text of both. -/
theorem slice_append {start middle stop : Nat} (hstart : start ≤ middle + 1)
    (hstop : middle ≤ stop) :
    index.slice start middle ++ index.slice (middle + 1) stop = index.slice start stop := by
  have htake : index.lines.toList.take middle = (index.lines.toList.take stop).take middle := by
    rw [List.take_take, Nat.min_eq_left hstop]
  have hdrop : (index.lines.toList.take stop).drop middle
      = ((index.lines.toList.take stop).drop (start - 1)).drop (middle - (start - 1)) := by
    rw [List.drop_drop]
    congr 1
    omega
  rw [slice_eq_join, slice_eq_join, slice_eq_join, ← String.join_append, Nat.add_sub_cancel, hdrop,
    htake, List.drop_take, List.take_append_drop]

/-- The texts of spans that follow one another make up the text of their range. -/
theorem join_slices {start stop : Nat} {spans : List LineSpan} (h : Tiles start stop spans) :
    String.join (spans.map fun span => index.slice span.start span.stop)
      = index.slice start stop := by
  induction spans generalizing start with
  | nil =>
    have hlt : stop < start := h
    have hnil : (index.lines.toList.take stop).drop (start - 1) = [] :=
      List.drop_eq_nil_of_le (Nat.le_trans (List.length_take_le _ _) (by omega))
    rw [List.map_nil, slice_eq_join, hnil]
  | cons span spans ih =>
    obtain ⟨rfl, hle, hstop, hrest⟩ := h
    rw [List.map_cons, String.join_cons, ih hrest]
    exact index.slice_append (by omega) hstop

end CodeIndex.LineIndex
