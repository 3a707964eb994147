import CodeIndex.Chunk.Build
import CodeIndex.Proofs.Lines.Windows
/-!
# The layout of pieces

Pieces are laid from a cursor to a last line when they follow one another in these lines and leave
out nothing but blank lines (`Laid`). Layouts can be put one behind the other (`laid_append`), which
is all that the walk along the units does: it keeps the cursor behind the last line taken, so a unit
that claims lines already taken, lines outside the region or no lines at all disturbs nothing
(`region_laid`, `unit_laid`).
-/

namespace CodeIndex.Piece

/-- `pieces` follow one another in the lines `cursor` to `stop`, and every other line there is
blank. -/
def Laid (index : LineIndex) : Nat → Nat → List Piece → Prop
  | cursor, stop, [] => ∀ l, cursor ≤ l → l ≤ stop → index.isBlankLine l = true
  | cursor, stop, piece :: pieces =>
    (cursor ≤ piece.start ∧ piece.start ≤ piece.stop ∧ piece.stop ≤ stop) ∧
    (∀ l, cursor ≤ l → l < piece.start → index.isBlankLine l = true) ∧
    Laid index (piece.stop + 1) stop pieces

variable {index : LineIndex}

/-! ### Putting layouts together -/

/-- Blank lines in front do not disturb a layout. -/
theorem laid_of_blank {cursor start stop : Nat} {pieces : List Piece} (hle : cursor ≤ start)
    (hblank : ∀ l, cursor ≤ l → l < start → index.isBlankLine l = true)
    (h : Laid index start stop pieces) : Laid index cursor stop pieces := by
  have hblank' : ∀ l b, (start ≤ l → l < b → index.isBlankLine l = true) → cursor ≤ l → l < b →
      index.isBlankLine l = true := by
    intro l b hb hl hlb
    by_cases hstart : start ≤ l
    · exact hb hstart hlb
    · exact hblank l hl (by omega)
  cases pieces with
  | nil =>
    intro l h1 h2
    exact hblank' l (stop + 1) (fun h3 _ => h l h3 h2) h1 (by omega)
  | cons piece pieces =>
    obtain ⟨⟨h1, h2, h3⟩, hgap, hrest⟩ := h
    exact ⟨⟨by omega, h2, h3⟩, fun l h4 h5 => hblank' l _ (hgap l) h4 h5, hrest⟩

theorem laid_append {cursor middle stop : Nat} {front back : List Piece}
    (hfront : Laid index cursor middle front) (hback : Laid index (middle + 1) stop back)
    (hle : cursor ≤ middle + 1) (hstop : middle ≤ stop) :
    Laid index cursor stop (front ++ back) := by
  induction front generalizing cursor with
  | nil =>
    refine laid_of_blank hle ?_ hback
    intro l h1 h2
    exact hfront l h1 (by omega)
  | cons piece front ih =>
    obtain ⟨⟨h1, h2, h3⟩, hgap, hrest⟩ := hfront
    exact ⟨⟨h1, h2, by omega⟩, hgap, ih hrest (by omega)⟩

/-! ### Windows and gaps -/

theorem laid_ofSpans {attribution : Attribution} {start stop : Nat} {spans : List LineSpan}
    (h : LineIndex.Tiles start stop spans) : Laid index start stop (ofSpans attribution spans) := by
  induction spans generalizing start with
  | nil =>
    intro l h1 h2
    have hlt : stop < start := h
    omega
  | cons span spans ih =>
    obtain ⟨rfl, h1, h2, hrest⟩ := h
    refine ⟨⟨Nat.le_refl _, h1, h2⟩, ?_, ih hrest⟩
    intro l h3 h4
    exact absurd h3 (Nat.not_le.mpr h4)

theorem gap_laid (limits : ChunkLimits) (attribution : Attribution) {start stop : Nat}
    (hstart : 1 ≤ start) (hstop : stop ≤ index.size) :
    Laid index start stop (gap limits index attribution start stop) := by
  have hclampStart := LineIndex.clampStart_eq hstart
  have hclampStop := LineIndex.clampStop_eq hstop
  unfold gap
  split
  · rename_i htrim
    intro l h1 h2
    exact index.isBlankLine_of_trim_none htrim l (by omega) (by omega)
  · rename_i first last htrim
    obtain ⟨h1, h2, h3, hfront, hback⟩ := index.trim_spec htrim
    rw [hclampStart] at h1 hfront
    rw [hclampStop] at h3 hback
    -- The range was trimmed inside the text, so the windows have nothing to cut off.
    have htiles := index.windows_tiles first last index.size limits.maxTokens
    rw [LineIndex.clampStart_eq (by omega), LineIndex.clampStop_eq (by omega)] at htiles
    have hlaid : Laid index first stop
        (ofSpans attribution (index.windows first last index.size limits.maxTokens) ++ []) :=
      laid_append (laid_ofSpans htiles) (fun l h4 h5 => hback l (by omega) h5) (by omega) h3
    rw [List.append_nil] at hlaid
    exact laid_of_blank h1 hfront hlaid

/-! ### Regions and units -/

mutual

/-- A region is laid whatever lines its units claim. -/
theorem region_laid (limits : ChunkLimits) (attribution : Attribution) (owner : Option CodeUnit)
    (cursor stop : Nat) (hcursor : 1 ≤ cursor) (hstop : stop ≤ index.size) :
    ∀ trees : List UnitTree,
      Laid index cursor stop (region limits index attribution owner cursor stop trees)
  | [] => by
    rw [region]
    split
    · exact gap_laid limits attribution hcursor hstop
    · intro l h1 h2
      omega
  | tree :: trees => by
    rw [region]
    split
    · exact region_laid limits attribution owner cursor stop hcursor hstop trees
    · rename_i hlast
      -- The unit is cut down to the lines between the cursor and the end of the region, so what
      -- stands in front of it is a gap, if anything does.
      have hgap : Laid index cursor (max tree.unit.startLine cursor - 1)
          (if cursor < max tree.unit.startLine cursor then
            gap limits index attribution cursor (max tree.unit.startLine cursor - 1) else []) := by
        split
        · exact gap_laid limits attribution hcursor (by omega)
        · intro l h1 h2
          omega
      have hunit := unit_laid limits owner (max tree.unit.startLine cursor)
        (min tree.unit.endLine stop) (by omega) (by omega) (by omega) tree
      have hrest := region_laid limits attribution owner (min tree.unit.endLine stop + 1) stop
        (by omega) hstop trees
      rw [List.append_assoc]
      refine laid_append hgap ?_ (by omega) (by omega)
      rw [Nat.sub_add_cancel (by omega)]
      exact laid_append hunit hrest (by omega) (by omega)

/-- A unit takes up all the lines it is given. -/
theorem unit_laid (limits : ChunkLimits) (owner : Option CodeUnit) (start stop : Nat)
    (hstart : 1 ≤ start) (hle : start ≤ stop) (hstop : stop ≤ index.size) :
    ∀ tree : UnitTree, Laid index start stop (unit limits index owner start stop tree)
  | .node codeUnit nested => by
    -- Whether it is over the budget or not, a unit that stays whole is one piece.
    have hwhole : ∀ attribution oversized,
        Laid index start stop [⟨start, stop, attribution, oversized⟩] := by
      intro attribution oversized
      refine ⟨⟨Nat.le_refl _, hle, Nat.le_refl _⟩, ?_, ?_⟩
      · intro l h1 h2
        exact absurd h1 (Nat.not_le.mpr h2)
      · intro l h1 h2
        exact absurd h1 (Nat.not_le.mpr (Nat.lt_succ_of_le h2))
    rw [unit]
    split
    · exact hwhole _ _
    · split
      · exact hwhole _ _
      · exact region_laid limits _ _ start stop hstart hstop nested

end

/-- The pieces of a file with units are laid from its first line to its last. -/
theorem semantic_laid (limits : ChunkLimits) (forest : List UnitTree) :
    Laid index 1 index.size (semantic limits index forest) :=
  region_laid limits _ _ 1 index.size (Nat.le_refl _) (Nat.le_refl _) forest

/-- The pieces of a file without a tree are laid from its first line to its last. -/
theorem fallback_laid (limits : ChunkLimits) : Laid index 1 index.size (fallback limits index) := by
  have htiles := index.windows_tiles 1 index.size limits.windowLines limits.maxTokens
  rw [show LineIndex.clampStart 1 = 1 from rfl,
    show index.clampStop index.size = index.size from Nat.min_self _] at htiles
  exact laid_ofSpans htiles

end CodeIndex.Piece
