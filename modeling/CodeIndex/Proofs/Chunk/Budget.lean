import CodeIndex.Proofs.Chunk.Partition
/-!
# The token budget

A chunk is marked as oversized when it exceeds the token budget. `oversized_exact_iff` tells exactly
when the mark is right for every chunk of a file: always, but for one case. A file that is cut along
its tree into nothing at all is blank, and the chunk that then covers it is never marked, although
its first line may be longer than the budget. `not_oversized_blank_line` is such a file.

Every piece of a walk along the units is marked by its estimate (`Piece.marked_semantic`), and a
chunk has the estimate of its piece, because the running counts agree with the text
(`LineIndex.tokens_ofText`).
-/

namespace CodeIndex

/-! ### Marks of pieces -/

namespace Piece

/-- The piece is marked exactly when it exceeds the budget. -/
def IsMarked (limits : ChunkLimits) (index : LineIndex) (p : Piece) : Prop :=
  p.oversized = decide (limits.maxTokens < index.tokens p.start p.stop)

variable (limits : ChunkLimits) (index : LineIndex)

theorem marked_windows (attribution : Attribution) (start stop maxLines : Nat) :
    ∀ p ∈ ofSpans attribution (index.windows start stop maxLines limits.maxTokens),
      IsMarked limits index p := by
  intro p hp
  obtain ⟨span, hspan, rfl⟩ := List.mem_map.mp hp
  exact index.oversized_windows start stop maxLines limits.maxTokens span hspan

theorem marked_gap (attribution : Attribution) (start stop : Nat) :
    ∀ p ∈ gap limits index attribution start stop, IsMarked limits index p := by
  unfold gap
  split
  · simp
  · exact marked_windows limits index attribution _ _ _

mutual

theorem marked_region (attribution : Attribution) (owner : Option CodeUnit) (cursor stop : Nat) :
    ∀ trees : List UnitTree, ∀ p ∈ region limits index attribution owner cursor stop trees,
      IsMarked limits index p
  | [] => by
    rw [region]
    split
    · exact marked_gap limits index attribution cursor stop
    · simp
  | tree :: trees => by
    rw [region]
    split
    · exact marked_region attribution owner cursor stop trees
    · intro p hp
      rcases List.mem_append.mp hp with hp | hp
      · rcases List.mem_append.mp hp with hp | hp
        · split at hp
          · exact marked_gap limits index attribution _ _ p hp
          · cases hp
        · exact marked_unit owner _ _ tree p hp
      · exact marked_region attribution owner _ stop trees p hp

theorem marked_unit (owner : Option CodeUnit) (start stop : Nat) :
    ∀ tree : UnitTree, ∀ p ∈ unit limits index owner start stop tree, IsMarked limits index p
  | .node codeUnit nested => by
    rw [unit]
    split
    · rename_i hfits
      intro p hp
      obtain rfl := List.mem_singleton.mp hp
      simpa [IsMarked] using hfits
    · rename_i hfits
      split
      · -- A unit over the budget with nothing nested in it is marked.
        intro p hp
        obtain rfl := List.mem_singleton.mp hp
        simpa [IsMarked] using hfits
      · exact marked_region _ _ start stop nested

end

theorem marked_semantic (forest : List UnitTree) :
    ∀ p ∈ semantic limits index forest, IsMarked limits index p :=
  marked_region limits index _ _ _ _ forest

theorem marked_fallback : ∀ p ∈ fallback limits index, IsMarked limits index p :=
  marked_windows limits index _ _ _ _

end Piece

/-! ### Marks of chunks -/

namespace ChunkBuild

/-- The mark of a chunk is right. -/
def IsExact (limits : ChunkLimits) (c : Chunk) : Prop :=
  c.oversized = true ↔ limits.maxTokens < c.tokenCount

theorem isMarked_piecesOf (limits : ChunkLimits) (index : LineIndex) (content : String)
    (tree : Option Syntax.Tree) :
    ∀ p ∈ piecesOf limits index content tree, Piece.IsMarked limits index p := by
  cases tree with
  | none => exact Piece.marked_fallback limits index
  | some t => exact Piece.marked_semantic limits index _

/-- Chunks of pieces that are marked have right marks. -/
theorem isExact_of_isMarked {limits : ChunkLimits} (resource : Resource) (content : String)
    (isFallback : Bool) {pieces : List Piece}
    (h : ∀ p ∈ pieces, Piece.IsMarked limits (LineIndex.ofText content) p) :
    ∀ c ∈ pieces.mapIdx (chunkOf resource (LineIndex.ofText content) isFallback),
      IsExact limits c := by
  intro c hc
  obtain ⟨p, hp, -, -, hmark, hcontent, hcount⟩ := exists_piece_of_mem _ _ _ _ c hc
  rw [IsExact, hmark, h p hp, hcount, hcontent, LineIndex.tokens_ofText, decide_eq_true_iff]

/-- A walk along the units that gives nothing has met blank lines alone. -/
theorem isBlank_of_semantic_nil {limits : ChunkLimits} {content : String}
    {forest : List UnitTree}
    (h : Piece.semantic limits (LineIndex.ofText content) forest = []) :
    ∀ line ∈ Lines.ofText content, Text.isBlank line = true := by
  intro line hline
  obtain ⟨i, hi, hget⟩ := List.mem_iff_getElem.mp hline
  have hlaid : Piece.Laid (LineIndex.ofText content) _ _ _ := Piece.semantic_laid limits forest
  have hsize := LineIndex.size_ofText content
  rw [h] at hlaid
  have hblank := hlaid (i + 1) (by omega) (by omega)
  rwa [LineIndex.isBlankLine_ofText content i line (List.getElem?_eq_some_iff.mpr ⟨hi, hget⟩)]
    at hblank

/-- A file that gives no piece becomes the one chunk that covers it. -/
theorem chunks_of_piecesOf_nil {limits : ChunkLimits} {parsed : Parsed} {content : String}
    (resource : Resource)
    (h : piecesOf limits (LineIndex.ofText content) content parsed.tree? = []) :
    (build limits resource parsed content).chunks
      = [chunkOf resource (LineIndex.ofText content) parsed.tree?.isNone 0
          (coverPiece parsed.tree?.isNone)] := by
  simp only [build, h]
  rfl

/-- Only the cover of a file cut along its tree can be missing a mark. -/
structure IsUnmarkedCover (limits : ChunkLimits) (parsed : Parsed) (content : String) : Prop where
  /-- The file was cut along a tree, and no piece came of it. -/
  no_piece : ∃ t, parsed = .tree t ∧
    Piece.semantic limits (LineIndex.ofText content) (UnitTree.collect t content) = []
  blank : ∀ line ∈ Lines.ofText content, Text.isBlank line = true
  over_budget : limits.maxTokens < estimateTokens (Lines.between content 1 1)

theorem isUnmarkedCover_of_piecesOf_nil {limits : ChunkLimits} {parsed : Parsed}
    {content : String}
    (hnil : piecesOf limits (LineIndex.ofText content) content parsed.tree? = [])
    (hover : limits.maxTokens < estimateTokens (Lines.between content 1 1)) :
    IsUnmarkedCover limits parsed content := by
  have hne : content ≠ "" := by
    rintro rfl
    exact absurd hover (Nat.not_lt_zero _)
  -- Without a tree the windows take up every line, so there is none.
  have hempty : parsed.tree? = none → content = "" := by
    intro htree
    rw [htree] at hnil
    have hlaid := LineIndex.windows_tiles (LineIndex.ofText content) 1
      (LineIndex.ofText content).size limits.windowLines limits.maxTokens
    rw [List.map_eq_nil_iff.mp hnil] at hlaid
    have hsize := LineIndex.size_ofText content
    have hlt : (LineIndex.ofText content).clampStop (LineIndex.ofText content).size < 1 := hlaid
    rw [LineIndex.clampStop, Nat.min_self] at hlt
    exact (Lines.ofText_eq_nil_iff content).mp (List.length_eq_zero_iff.mp (by omega))
  cases parsed with
  | unsupported => exact absurd (hempty rfl) hne
  | failed fault => exact absurd (hempty rfl) hne
  | tree t => exact ⟨⟨t, rfl, hnil⟩, isBlank_of_semantic_nil hnil, hover⟩

/-- The cover is marked rightly exactly when the first line is within the budget. -/
theorem isExact_coverPiece (limits : ChunkLimits) (resource : Resource) (content : String)
    (isFallback : Bool) :
    IsExact limits (chunkOf resource (LineIndex.ofText content) isFallback 0
        (coverPiece isFallback)) ↔
      ¬ limits.maxTokens < estimateTokens (Lines.between content 1 1) := by
  have hslice : (LineIndex.ofText content).slice 1 1 = Lines.between content 1 1 := by
    by_cases hempty : content = ""
    · subst hempty
      rfl
    · have hne := mt (Lines.ofText_eq_nil_iff content).mp hempty
      have hsize := LineIndex.size_ofText content
      have hpos := List.length_pos_iff.mpr hne
      exact LineIndex.slice_ofText content 1 1 (Nat.le_refl _) (by omega)
  show (false = true ↔ limits.maxTokens < estimateTokens ((LineIndex.ofText content).slice 1 1)) ↔ _
  rw [hslice]
  simp

end ChunkBuild

/-- **Marks are exact** in every file but those whose unmarked cover exceeds the budget. -/
theorem oversized_exact_iff (limits : ChunkLimits) (resource : Resource) (parsed : Parsed)
    (content : String) :
    (∀ c ∈ (ChunkBuild.build limits resource parsed content).chunks,
      (c.oversized = true ↔ limits.maxTokens < c.tokenCount)) ↔
    ¬ ChunkBuild.IsUnmarkedCover limits parsed content := by
  by_cases hnil : ChunkBuild.piecesOf limits (LineIndex.ofText content) content parsed.tree? = []
  · rw [ChunkBuild.chunks_of_piecesOf_nil resource hnil]
    have hcover := ChunkBuild.isExact_coverPiece limits resource content parsed.tree?.isNone
    rw [List.forall_mem_singleton]
    refine hcover.trans (not_congr ⟨?_, fun h => h.over_budget⟩)
    exact ChunkBuild.isUnmarkedCover_of_piecesOf_nil hnil
  · constructor
    · intro _ h
      obtain ⟨⟨t, rfl, hpieces⟩, -, -⟩ := h
      exact hnil hpieces
    · intro _
      have hmarked := ChunkBuild.isMarked_piecesOf limits (LineIndex.ofText content) content
        parsed.tree?
      have hpieces : ChunkBuild.orCover parsed.tree?.isNone
          (ChunkBuild.piecesOf limits (LineIndex.ofText content) content parsed.tree?)
            = ChunkBuild.piecesOf limits (LineIndex.ofText content) content parsed.tree? := by
        rw [ChunkBuild.orCover, if_neg (by simpa using hnil)]
      simp only [ChunkBuild.build, hpieces]
      exact ChunkBuild.isExact_of_isMarked resource content _ hmarked

/-- One line of five blanks, in a file with a tree and a budget of one token: the chunk that covers
it has two tokens and is not marked. -/
theorem not_oversized_blank_line :
    let t : Syntax.Tree :=
      ⟨"python", .python, #[⟨"module", none, 0, 5, 1, 1, none, false⟩], by decide, _, rfl⟩
    let file := Resource.ofPath "/r" "a.py" .practice "python" .epoch
    ¬ ∀ c ∈ (ChunkBuild.build (.ofNats 1 80) file (.tree t) "     ").chunks,
      (c.oversized = true ↔ 1 < c.tokenCount) := by
  intro t file h
  have hchildren : t.children Syntax.Tree.root = [] := by decide +kernel
  have hcollect : UnitTree.collect t "     " = [] := by
    rw [UnitTree.collect, hchildren, List.flatMap_nil]
  have hnil : ChunkBuild.piecesOf (.ofNats 1 80) (LineIndex.ofText "     ") "     "
      (Parsed.tree t).tree? = [] := by
    show Piece.semantic (.ofNats 1 80) (LineIndex.ofText "     ") (UnitTree.collect t "     ") = []
    rw [hcollect]
    decide
  rw [ChunkBuild.chunks_of_piecesOf_nil file hnil, List.forall_mem_singleton] at h
  have htokens : 1 < estimateTokens ((LineIndex.ofText "     ").slice 1 1) := by decide
  exact Bool.false_ne_true (h.mpr htokens)

end CodeIndex
