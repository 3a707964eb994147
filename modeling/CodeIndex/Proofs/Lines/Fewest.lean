import CodeIndex.Proofs.Lines.Greedy
/-!
# The fewest windows

A range of lines can be cut in many ways into spans that follow one another and keep to the limits
of lines and tokens, where a single line is always allowed (`IsDivision`). Windows are taken
greedily, and no division has fewer spans than there are windows (`windows_fewest`).

Estimates are rounded up, so that they do not add up over lines. What the argument needs of them is
only that a part of some lines is estimated no higher than the whole. It follows that what is left
of an allowed span when its first lines are dropped is allowed again (`IsAllowed.of_start_le`), and
that the greedy window reaches at least as far as any allowed span from its line does
(`IsAllowed.le_growWindow`). A division that begins no later than the windows therefore ends its
first span no later than they do (`IsDivision.length_windowsFrom_le`).
-/

namespace CodeIndex.Lines

/-- A single line, or lines within both limits; at least one line is always within the first. -/
def IsAllowed (text : String) (maxLines maxTokens start stop : Nat) : Prop :=
  start = stop ∨ stop + 1 - start ≤ max maxLines 1 ∧ tokens text start stop ≤ maxTokens

/-- The lines `start` to `stop` cut into allowed spans that follow one another. How the spans are
marked does not matter. -/
structure IsDivision (text : String) (maxLines maxTokens start stop : Nat)
    (spans : List LineSpan) : Prop where
  tiles : LineIndex.Tiles start stop spans
  allowed : ∀ span ∈ spans, IsAllowed text maxLines maxTokens span.start span.stop

variable {text : String} {maxLines maxTokens : Nat}

/-- Dropping lines at the start does not raise the estimate. -/
theorem tokens_anti {start start' stop : Nat} (hstart' : 1 ≤ start') (hstart : start ≤ start')
    (hstop : start' ≤ stop + 1) : tokens text start' stop ≤ tokens text start stop := by
  obtain ⟨middle, rfl⟩ := Nat.exists_eq_add_of_le' hstart'
  exact (tokens_le_of_append hstart (Nat.le_of_succ_le_succ hstop)).2

/-! ### Allowed spans -/

/-- Windows keep to their limits exactly when they are allowed. -/
theorem isAllowed_iff_within {start stop : Nat} (h : start ≤ stop) :
    IsAllowed text maxLines maxTokens start stop ↔
      (LineIndex.ofText text).Within (max maxLines 1) maxTokens start stop := by
  rw [IsAllowed, LineIndex.Within, tokens_eq]
  constructor
  · rintro (rfl | ⟨hlines, htokens⟩)
    · exact ⟨by omega, fun hlt => absurd hlt (Nat.lt_irrefl _)⟩
    · exact ⟨by omega, fun _ => htokens⟩
  · rintro ⟨hlines, htokens⟩
    rcases Nat.eq_or_lt_of_le h with heq | hlt
    · exact Or.inl heq
    · exact Or.inr ⟨by omega, htokens hlt⟩

/-- What is left of an allowed span is allowed. -/
theorem IsAllowed.of_start_le {start start' stop : Nat}
    (h : IsAllowed text maxLines maxTokens start stop) (hstart' : 1 ≤ start')
    (hstart : start ≤ start') (hstop : start' ≤ stop) :
    IsAllowed text maxLines maxTokens start' stop := by
  rcases h with rfl | ⟨hlines, htokens⟩
  · exact Or.inl (Nat.le_antisymm hstop hstart)
  · have hanti : tokens text start' stop ≤ tokens text start stop :=
      tokens_anti hstart' hstart (by omega)
    exact Or.inr ⟨by omega, Nat.le_trans hanti htokens⟩

/-- The window that begins at a line reaches as far as any allowed span from there. -/
theorem IsAllowed.le_growWindow {start stop last : Nat}
    (h : IsAllowed text maxLines maxTokens start stop) (hlast : stop ≤ last) :
    stop ≤ (LineIndex.ofText text).growWindow (max maxLines 1) maxTokens start start
      (last - start) := by
  have hge := (LineIndex.ofText text).le_growWindow (max maxLines 1) maxTokens start start
    (last - start)
  refine Nat.not_lt.mp fun hlt => ?_
  -- The window ends before the span does, so the next line, which is in the span, had no room.
  have hmaximal := LineIndex.maximal_growWindow (LineIndex.ofText text) (max maxLines 1) maxTokens
    start start (last - start) (by omega)
  rcases h with rfl | ⟨hlines, htokens⟩
  · omega
  · have hover := hmaximal (by omega)
    rw [tokens_eq] at hover
    have hmono := Nat.le_trans (tokens_mono (by omega) hlt) htokens
    exact Nat.lt_irrefl _ (Nat.lt_of_lt_of_le hover hmono)

/-! ### Divisions -/

theorem IsDivision.of_cons {start stop : Nat} {span : LineSpan} {spans : List LineSpan}
    (h : IsDivision text maxLines maxTokens start stop (span :: spans)) :
    span.start = start ∧ start ≤ span.stop ∧ span.stop ≤ stop ∧
    IsAllowed text maxLines maxTokens start span.stop ∧
    IsDivision text maxLines maxTokens (span.stop + 1) stop spans := by
  obtain ⟨⟨rfl, hle, hstop, hrest⟩, hallowed⟩ := h
  exact ⟨rfl, hle, hstop, hallowed span List.mem_cons_self, hrest,
    fun other hother => hallowed other (List.mem_cons_of_mem _ hother)⟩

/-- Windows that begin no earlier than a division are no more than its spans. -/
theorem IsDivision.length_windowsFrom_le {start last : Nat} {spans : List LineSpan}
    (h : IsDivision text maxLines maxTokens start last spans) :
    ∀ start', 1 ≤ start' → start ≤ start' →
      ((LineIndex.ofText text).windowsFrom (max maxLines 1) maxTokens start' last).length
        ≤ spans.length := by
  induction spans generalizing start with
  | nil =>
    intro start' _ hstart
    have hlast : last < start := h.tiles
    have hnone :
        (LineIndex.ofText text).windowsFrom (max maxLines 1) maxTokens start' last = [] := by
      rw [LineIndex.windowsFrom, if_neg (by omega)]
    exact Nat.le_of_eq (congrArg List.length hnone)
  | cons span spans ih =>
    intro start' hpos hstart
    obtain ⟨-, hle, hstop, hallowed, hrest⟩ := h.of_cons
    by_cases hlast : start' ≤ last
    · rw [LineIndex.windowsFrom, if_pos hlast, List.length_cons, List.length_cons]
      -- The first window ends no earlier than the first span, so the rest stays ahead as well.
      have hahead : span.stop ≤ (LineIndex.ofText text).growWindow (max maxLines 1) maxTokens
          start' start' (last - start') := by
        by_cases hinside : start' ≤ span.stop
        · exact (hallowed.of_start_le hpos hstart hinside).le_growWindow hstop
        · have := (LineIndex.ofText text).le_growWindow (max maxLines 1) maxTokens start' start'
            (last - start')
          omega
      exact Nat.succ_le_succ (ih hrest _ (by omega) (by omega))
    · rw [LineIndex.windowsFrom, if_neg hlast]
      exact Nat.zero_le _

/-- Windows are a division. -/
theorem isDivision_windows (text : String) (start stop maxLines maxTokens : Nat) :
    IsDivision text maxLines maxTokens (max start 1) (min stop (ofText text).length)
      ((LineIndex.ofText text).windows start stop maxLines maxTokens) := by
  have htiles := (LineIndex.ofText text).windows_tiles start stop maxLines maxTokens
  rw [LineIndex.clampStart, LineIndex.clampStop, LineIndex.size_ofText] at htiles
  refine ⟨htiles, fun span hspan => ?_⟩
  have hwithin := LineIndex.within_windowsFrom (LineIndex.ofText text)
    (Nat.le_max_right maxLines 1) maxTokens _ _ span hspan
  exact (isAllowed_iff_within (htiles.le_of_mem hspan)).mpr hwithin

/-- **Windows are a division into the fewest spans.** They are allowed spans that follow one another
from the first line of the range to the last; marked are those over the budget, which are single
lines; and no division of the range has fewer spans. -/
theorem windows_fewest (text : String) (start stop maxLines maxTokens : Nat) :
    let windows := (LineIndex.ofText text).windows start stop maxLines maxTokens
    let first := max start 1
    let last := min stop (ofText text).length
    IsDivision text maxLines maxTokens first last windows ∧
    (∀ span ∈ windows, (span.oversized = true ↔ maxTokens < tokens text span.start span.stop) ∧
      (span.oversized = true → span.start = span.stop)) ∧
    ∀ spans, IsDivision text maxLines maxTokens first last spans →
      windows.length ≤ spans.length := by
  intro windows first last
  have hdivision : IsDivision text maxLines maxTokens first last windows :=
    isDivision_windows text start stop maxLines maxTokens
  refine ⟨hdivision, fun span hspan => ?_, fun spans hspans => ?_⟩
  · have hmarked : span.oversized = true ↔ maxTokens < tokens text span.start span.stop := by
      rw [LineIndex.oversized_windows _ _ _ _ _ span hspan, decide_eq_true_iff, tokens_eq]
    refine ⟨hmarked, fun hover => ?_⟩
    rcases hdivision.allowed span hspan with hline | ⟨-, hwithin⟩
    · exact hline
    · exact absurd (hmarked.mp hover) (Nat.not_lt.mpr hwithin)
  · have hahead := hspans.length_windowsFrom_le first (Nat.le_max_right _ _) (Nat.le_refl _)
    subst last
    rwa [← LineIndex.size_ofText] at hahead

end CodeIndex.Lines
