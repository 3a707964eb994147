import CodeIndex.Proofs.Lines.Text
import CodeIndex.Proofs.Lines.Windows
/-!
# Trimming and windows, told of the text

What trimming and windowing do to the lines of a text, said without an index. A trimmed range is the
range from its first line that is not blank to its last (`IsTrimmed`). Windows that only the budget
limits follow one another, and each takes in lines as long as the budget allows, but at least one
(`AreWindows`). Either is determined by what is said of it, and is what the index gives
(`trim_eq_some_iff`, `areWindows_iff`).
-/

namespace CodeIndex.Lines

/-- The token estimate of the lines `start` to `stop`. -/
def tokens (text : String) (start stop : Nat) : Nat :=
  estimateTokens (between text start stop)

/-- The line holds nothing but white space. -/
def isBlankAt (text : String) (line : Nat) : Bool :=
  Text.isBlank (between text line line)

/-- The lines `first` to `last` are the lines `start` to `stop` without the blank ones at the
edges. -/
structure IsTrimmed (text : String) (start stop first last : Nat) : Prop where
  start_le : start ≤ first
  le : first ≤ last
  le_stop : last ≤ stop
  first_filled : isBlankAt text first = false
  last_filled : isBlankAt text last = false
  blank_before : ∀ l, start ≤ l → l < first → isBlankAt text l = true
  blank_after : ∀ l, last < l → l ≤ stop → isBlankAt text l = true

/-- The lines from `start` to `last` in windows within a budget. A window ends where the next line
would exceed the budget; a line over the budget stands alone. -/
inductive AreWindows (text : String) (maxTokens last : Nat) : Nat → List (Nat × Nat) → Prop where
  | nil {start : Nat} : last < start → AreWindows text maxTokens last start []
  | cons {start stop : Nat} {rest : List (Nat × Nat)} : start ≤ stop → stop ≤ last →
      (start < stop → tokens text start stop ≤ maxTokens) →
      (stop < last → maxTokens < tokens text start (stop + 1)) →
      AreWindows text maxTokens last (stop + 1) rest →
      AreWindows text maxTokens last start ((start, stop) :: rest)

/-- One of the windows that lines are cut into after the blank ones at the edges are dropped. -/
def IsWindow (text : String) (maxTokens start stop first last : Nat) : Prop :=
  ∃ start' stop' spans, IsTrimmed text start stop start' stop' ∧
    AreWindows text maxTokens stop' start' spans ∧ (first, last) ∈ spans

/-! ### The index of a text -/

variable {text : String}

theorem slice_eq_between (start stop : Nat) :
    (LineIndex.ofText text).slice start stop = between text start stop := by
  rw [LineIndex.slice_eq_join, LineIndex.lines_ofText]
  rfl

theorem tokens_eq (start stop : Nat) :
    (LineIndex.ofText text).tokens start stop = tokens text start stop := by
  rw [LineIndex.tokens_ofText, slice_eq_between]
  rfl

theorem isBlankLine_eq (line : Nat) :
    (LineIndex.ofText text).isBlankLine line = isBlankAt text line := by
  rw [LineIndex.isBlankLine, slice_eq_between]
  rfl

/-- A part of some lines is estimated no higher than all of them. -/
theorem tokens_le_of_append {start middle stop : Nat} (hstart : start ≤ middle + 1)
    (hstop : middle ≤ stop) :
    tokens text start middle ≤ tokens text start stop ∧
      tokens text (middle + 1) stop ≤ tokens text start stop := by
  have happend := (LineIndex.ofText text).slice_append hstart hstop
  rw [slice_eq_between, slice_eq_between, slice_eq_between] at happend
  rw [tokens, tokens, tokens, ← happend, estimateTokens, estimateTokens, estimateTokens,
    String.length_append, tokensOfChars, tokensOfChars, tokensOfChars]
  omega

/-- Further lines do not lower the estimate. -/
theorem tokens_mono {start stop stop' : Nat} (hstart : start ≤ stop + 1) (hstop : stop ≤ stop') :
    tokens text start stop ≤ tokens text start stop' :=
  (tokens_le_of_append hstart hstop).1

/-! ### Trimmed ranges -/

theorem IsTrimmed.unique {start stop first last first' last' : Nat}
    (h : IsTrimmed text start stop first last) (h' : IsTrimmed text start stop first' last') :
    first = first' ∧ last = last' := by
  have hfilled : ∀ {l}, isBlankAt text l = false → isBlankAt text l = true → False :=
    fun hf ht => Bool.false_ne_true (hf.symm.trans ht)
  have h1 : ¬ first < first' := fun hlt =>
    hfilled h.first_filled (h'.blank_before first h.start_le hlt)
  have h2 : ¬ first' < first := fun hlt =>
    hfilled h'.first_filled (h.blank_before first' h'.start_le hlt)
  have h3 : ¬ last < last' := fun hlt =>
    hfilled h'.last_filled (h.blank_after last' hlt h'.le_stop)
  have h4 : ¬ last' < last := fun hlt =>
    hfilled h.last_filled (h'.blank_after last hlt h.le_stop)
  omega

/-- Trimming gives the trimmed range. -/
theorem trim_eq_some_iff {start stop first last : Nat} (hstart : 1 ≤ start)
    (hstop : stop ≤ (LineIndex.ofText text).size) :
    (LineIndex.ofText text).trim start stop = some (first, last) ↔
      IsTrimmed text start stop first last := by
  have hclampStart := LineIndex.clampStart_eq hstart
  have hclampStop := LineIndex.clampStop_eq hstop
  have htrimmed : ∀ {first last}, (LineIndex.ofText text).trim start stop = some (first, last) →
      IsTrimmed text start stop first last := by
    intro first last h
    obtain ⟨h1, h2, h3, hbefore, hafter⟩ := LineIndex.trim_spec _ h
    obtain ⟨hfirst, hlast⟩ := LineIndex.isBlankLine_of_trim _ h
    rw [hclampStart] at h1 hbefore
    rw [hclampStop] at h3 hafter
    simp only [isBlankLine_eq] at hbefore hafter hfirst hlast
    exact ⟨h1, h2, h3, hfirst, hlast, hbefore, hafter⟩
  refine ⟨htrimmed, fun h => ?_⟩
  cases htrim : (LineIndex.ofText text).trim start stop with
  | none =>
    -- The first line of a trimmed range is not blank, so there is something left to trim.
    have hblank := LineIndex.isBlankLine_of_trim_none _ htrim first
      (hclampStart.symm ▸ h.start_le) (hclampStop.symm ▸ Nat.le_trans h.le h.le_stop)
    rw [isBlankLine_eq, h.first_filled] at hblank
    cases hblank
  | some range =>
    obtain ⟨first', last'⟩ := range
    obtain ⟨rfl, rfl⟩ := h.unique (htrimmed htrim)
    rfl

/-! ### Windows -/

/-- Of two windows that begin at one line, the shorter one would have had room for its next line. -/
theorem le_of_maximal {maxTokens last start stop stop' : Nat} (hle : start ≤ stop)
    (hmaximal : stop < last → maxTokens < tokens text start (stop + 1)) (hlast : stop' ≤ last)
    (hwithin : start < stop' → tokens text start stop' ≤ maxTokens) : stop' ≤ stop := by
  refine Nat.not_lt.mp fun hlt => ?_
  have hover := hmaximal (by omega)
  have hmono : tokens text start (stop + 1) ≤ tokens text start stop' :=
    tokens_mono (by omega) hlt
  have := hwithin (by omega)
  omega

theorem AreWindows.unique {maxTokens last start : Nat} {spans spans' : List (Nat × Nat)}
    (h : AreWindows text maxTokens last start spans)
    (h' : AreWindows text maxTokens last start spans') : spans = spans' := by
  induction h generalizing spans' with
  | nil hlt =>
    cases h' with
    | nil _ => rfl
    | cons h1 h2 _ _ _ => omega
  | cons h1 h2 hwithin hmaximal _ ih =>
    cases h' with
    | nil hlt => omega
    | cons h1' h2' hwithin' hmaximal' hrest' =>
      obtain rfl := Nat.le_antisymm (le_of_maximal h1' hmaximal' h2 hwithin)
        (le_of_maximal h1 hmaximal h2' hwithin')
      rw [ih hrest']

theorem areWindows_windowsFrom {maxLines maxTokens last start : Nat} (hstart : 1 ≤ start)
    (hlast : last ≤ maxLines) :
    AreWindows text maxTokens last start
      (((LineIndex.ofText text).windowsFrom maxLines maxTokens start last).map
        fun span => (span.start, span.stop)) := by
  induction start using LineIndex.windowsFrom.induct (LineIndex.ofText text) maxLines maxTokens last
    with
  | case1 start hle stop ih =>
    have hge := (LineIndex.ofText text).le_growWindow maxLines maxTokens start start (last - start)
    have hstop := (LineIndex.ofText text).growWindow_le maxLines maxTokens start start
      (last - start)
    rw [LineIndex.windowsFrom, if_pos hle]
    refine .cons hge ?_ (fun hlt => ?_) (fun hlt => ?_) (ih (by omega))
    · show (LineIndex.ofText text).growWindow maxLines maxTokens start start (last - start) ≤ last
      omega
    · have hline : (LineIndex.ofText text).Within maxLines maxTokens start start :=
        ⟨by omega, fun h => absurd h (Nat.lt_irrefl start)⟩
      rw [← tokens_eq]
      exact (LineIndex.within_growWindow _ maxLines maxTokens start start _ hline).2 hlt
    · -- No window reaches the limit of lines, so the budget has ended this one.
      have hlt' : (LineIndex.ofText text).growWindow maxLines maxTokens start start (last - start)
          < last := hlt
      rw [← tokens_eq]
      exact LineIndex.maximal_growWindow _ maxLines maxTokens start start _ (by omega) (by omega)
  | case2 start hle =>
    rw [LineIndex.windowsFrom, if_neg hle]
    exact .nil (Nat.not_le.mp hle)

/-- Windows that no limit of lines ends are those of the budget. -/
theorem areWindows_iff {maxTokens start stop : Nat} {spans : List (Nat × Nat)} (hstart : 1 ≤ start)
    (hstop : stop ≤ (LineIndex.ofText text).size) :
    AreWindows text maxTokens stop start spans ↔
      ((LineIndex.ofText text).windows start stop (LineIndex.ofText text).size maxTokens).map
        (fun span => (span.start, span.stop)) = spans := by
  have hwindows : AreWindows text maxTokens stop start
      (((LineIndex.ofText text).windows start stop (LineIndex.ofText text).size maxTokens).map
        fun span => (span.start, span.stop)) := by
    rw [LineIndex.windows, LineIndex.clampStart_eq hstart, LineIndex.clampStop_eq hstop]
    exact areWindows_windowsFrom hstart (Nat.le_trans hstop (Nat.le_max_left _ _))
  constructor
  · exact hwindows.unique
  · rintro rfl
    exact hwindows

end CodeIndex.Lines
