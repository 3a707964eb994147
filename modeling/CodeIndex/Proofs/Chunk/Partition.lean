import CodeIndex.Proofs.Chunk.Layout
import CodeIndex.Proofs.Lines.Text
/-!
# Chunks partition the file

`chunks_partition`: whatever the syntax tree claims, the chunks of a file are disjoint runs of its
lines in ascending order, every line that is not blank is in exactly one of them, and each holds the
text of its lines. An empty file is one empty chunk at line one.

The pieces of a file are laid from its first line to its last (`Piece.semantic_laid`,
`Piece.fallback_laid`). What a layout says of single lines is in `Piece.mem_laid`,
`Piece.pairwise_laid` and `Piece.countP_laid`; a chunk has the lines of its piece.
-/

namespace CodeIndex

/-- Chunks that partition the lines of a text. -/
structure IsPartition (content : String) (chunks : List Chunk) : Prop where
  ne_nil : chunks ≠ []
  /-- Chunks are numbered from zero. -/
  seq_eq : chunks.map (·.seq) = List.range chunks.length
  /-- Every chunk has a line, and all its lines are lines of the text. -/
  lines_mem : ∀ c ∈ chunks,
    1 ≤ c.startLine ∧ c.startLine ≤ c.endLine ∧ c.endLine ≤ (Lines.ofText content).length
  /-- A chunk begins behind the end of every chunk before it. -/
  ascending : chunks.Pairwise fun a b => a.endLine < b.startLine
  /-- A line that is not blank is in exactly one chunk. -/
  covered : ∀ i line, (Lines.ofText content)[i]? = some line → Text.isBlank line = false →
    chunks.countP (fun c => c.startLine ≤ i + 1 && i + 1 ≤ c.endLine) = 1
  content_eq : ∀ c ∈ chunks, c.content = Lines.between content c.startLine c.endLine

/-! ### Lines of a layout -/

namespace Piece

variable {index : LineIndex}

theorem mem_laid {cursor stop : Nat} {pieces : List Piece} (h : Laid index cursor stop pieces) :
    ∀ p ∈ pieces, cursor ≤ p.start ∧ p.start ≤ p.stop ∧ p.stop ≤ stop := by
  induction pieces generalizing cursor with
  | nil => simp
  | cons piece pieces ih =>
    obtain ⟨hbounds, -, hrest⟩ := h
    intro p hp
    rcases List.mem_cons.mp hp with rfl | hp
    · exact hbounds
    · have := ih hrest p hp
      omega

theorem pairwise_laid {cursor stop : Nat} {pieces : List Piece}
    (h : Laid index cursor stop pieces) : pieces.Pairwise fun a b => a.stop < b.start := by
  induction pieces generalizing cursor with
  | nil => exact List.Pairwise.nil
  | cons piece pieces ih =>
    obtain ⟨-, -, hrest⟩ := h
    refine List.Pairwise.cons ?_ (ih hrest)
    intro p hp
    have := mem_laid hrest p hp
    omega

/-- In a layout a line that is not blank is in exactly one piece. -/
theorem countP_laid {cursor stop : Nat} {pieces : List Piece} (h : Laid index cursor stop pieces)
    {l : Nat} (hcursor : cursor ≤ l) (hstop : l ≤ stop) (hblank : index.isBlankLine l = false) :
    pieces.countP (fun p => p.start ≤ l && l ≤ p.stop) = 1 := by
  induction pieces generalizing cursor with
  | nil =>
    have := h l hcursor hstop
    rw [hblank] at this
    cases this
  | cons piece pieces ih =>
    obtain ⟨-, hgap, hrest⟩ := h
    -- The line is not among the blank lines in front of the piece.
    have hstart : piece.start ≤ l := by
      refine Nat.not_lt.mp fun hlt => ?_
      have := hgap l hcursor hlt
      rw [hblank] at this
      cases this
    by_cases hl : l ≤ piece.stop
    · rw [List.countP_cons_of_pos (by simp [hstart, hl]), Nat.add_eq_right, List.countP_eq_zero]
      intro p hp
      have := mem_laid hrest p hp
      simp only [Bool.and_eq_true, decide_eq_true_eq, not_and]
      omega
    · rw [List.countP_cons_of_neg (by simp [hl])]
      exact ih hrest (by omega)

/-- The piece that covers a blank file takes its first line. -/
theorem orCover_laid {isFallback : Bool} {pieces : List Piece} (hsize : 1 ≤ index.size)
    (h : Laid index 1 index.size pieces) :
    Laid index 1 index.size (ChunkBuild.orCover isFallback pieces) := by
  cases pieces with
  | nil =>
    refine ⟨⟨Nat.le_refl _, Nat.le_refl _, hsize⟩, ?_, ?_⟩
    · intro l h1 h2
      exact absurd h1 (Nat.not_le.mpr h2)
    · intro l h1 h2
      exact h l (Nat.le_of_succ_le h1) h2
  | cons piece pieces => exact h

end Piece

/-! ### Chunks of pieces -/

namespace ChunkBuild

theorem piecesOf_laid (limits : ChunkLimits) (index : LineIndex) (content : String)
    (tree : Option Syntax.Tree) :
    Piece.Laid index 1 index.size (piecesOf limits index content tree) := by
  cases tree with
  | none => exact Piece.fallback_laid limits
  | some t => exact Piece.semantic_laid limits _

/-- Every chunk is made of a piece, with the text of its lines. -/
theorem exists_piece_of_mem (resource : Resource) (index : LineIndex) (isFallback : Bool)
    (pieces : List Piece) :
    ∀ c ∈ pieces.mapIdx (chunkOf resource index isFallback), ∃ p ∈ pieces,
      c.startLine = p.start ∧ c.endLine = p.stop ∧ c.oversized = p.oversized ∧
      c.content = index.slice p.start p.stop ∧ c.tokenCount = estimateTokens c.content := by
  intro c hc
  obtain ⟨i, hi, rfl⟩ := List.mem_mapIdx.mp hc
  exact ⟨pieces[i], List.getElem_mem hi, rfl, rfl, rfl, rfl, rfl⟩

/-- A reading of chunks that does not look at their numbers is a reading of their pieces. -/
theorem map_chunks {β : Type} {resource : Resource} {index : LineIndex} {isFallback : Bool}
    {f : Chunk → β} {g : Piece → β} (pieces : List Piece)
    (h : ∀ seq p, f (chunkOf resource index isFallback seq p) = g p) :
    (pieces.mapIdx (chunkOf resource index isFallback)).map f = pieces.map g := by
  apply List.ext_getElem
  · simp
  · intro i h1 h2
    simp [h]

/-- Chunks have the lines of their pieces. -/
theorem map_lines_chunks (resource : Resource) (index : LineIndex) (isFallback : Bool)
    (pieces : List Piece) :
    (pieces.mapIdx (chunkOf resource index isFallback)).map (fun c => (c.startLine, c.endLine))
      = pieces.map fun p => (p.start, p.stop) :=
  map_chunks pieces fun _ _ => rfl

/-- Chunks are numbered from zero. -/
theorem map_seq_chunks (resource : Resource) (index : LineIndex) (isFallback : Bool)
    (pieces : List Piece) :
    (pieces.mapIdx (chunkOf resource index isFallback)).map (·.seq)
      = List.range pieces.length := by
  apply List.ext_getElem
  · simp
  · intro i h1 h2
    simp [chunkOf]

/-- The pieces of a file with lines become a partition of it. -/
theorem isPartition_of_laid (resource : Resource) (content : String) (isFallback : Bool)
    {pieces : List Piece} (hne : pieces ≠ [])
    (h : Piece.Laid (LineIndex.ofText content) 1 (LineIndex.ofText content).size pieces) :
    IsPartition content
      (pieces.mapIdx (chunkOf resource (LineIndex.ofText content) isFallback)) := by
  have hsize := LineIndex.size_ofText content
  have hlines := map_lines_chunks resource (LineIndex.ofText content) isFallback pieces
  have hpiece := exists_piece_of_mem resource (LineIndex.ofText content) isFallback pieces
  refine ⟨?_, ?_, ?_, ?_, ?_, ?_⟩
  · simpa using hne
  · rw [map_seq_chunks, List.length_mapIdx]
  · intro c hc
    obtain ⟨p, hp, hstart, hend, -⟩ := hpiece c hc
    have := Piece.mem_laid h p hp
    omega
  · have hpairs : (pieces.map fun p => (p.start, p.stop)).Pairwise fun a b => a.2 < b.1 :=
      List.pairwise_map.mpr (Piece.pairwise_laid h)
    rw [← hlines] at hpairs
    exact List.pairwise_map.mp hpairs
  · intro i line hline hblank
    have hi := (List.getElem?_eq_some_iff.mp hline).1
    have hcount := Piece.countP_laid h (l := i + 1) (by omega) (by omega)
      (by rw [LineIndex.isBlankLine_ofText content i line hline, hblank])
    -- Counting only looks at the lines of a chunk, which are those of its piece.
    have hpairs := congrArg (List.countP fun r : Nat × Nat => r.1 ≤ i + 1 && i + 1 ≤ r.2) hlines
    rw [List.countP_map, List.countP_map] at hpairs
    exact hpairs.trans hcount
  · intro c hc
    obtain ⟨p, hp, hstart, hend, -, hcontent, -⟩ := hpiece c hc
    obtain ⟨h1, -, h3⟩ := Piece.mem_laid h p hp
    rw [hcontent, hstart, hend, LineIndex.slice_ofText content _ _ h1 h3]

end ChunkBuild

/-- **Chunks partition the file**, with every syntax tree or none and within all limits. -/
theorem chunks_partition (maxTokens windowLines : Nat) (resource : Resource) (parsed : Parsed)
    (content : String) :
    let chunks := (ChunkBuild.build (.ofNats maxTokens windowLines) resource parsed content).chunks
    (1 ≤ (Lines.ofText content).length → IsPartition content chunks) ∧
    (content = "" →
      chunks.map (fun c => (c.seq, c.startLine, c.endLine, c.content)) = [(0, 1, 1, "")]) := by
  have hsize := LineIndex.size_ofText content
  have hlaid := ChunkBuild.piecesOf_laid (.ofNats maxTokens windowLines) (LineIndex.ofText content)
    content parsed.tree?
  constructor
  · intro hlines
    refine ChunkBuild.isPartition_of_laid _ _ _ ?_ (Piece.orCover_laid (by omega) hlaid)
    unfold ChunkBuild.orCover
    split
    · exact List.cons_ne_nil _ _
    · rename_i hpieces
      simpa using hpieces
  · rintro rfl
    -- A text without lines leaves no room for a piece.
    have hnil : ChunkBuild.piecesOf (.ofNats maxTokens windowLines) (LineIndex.ofText "") ""
        parsed.tree? = [] := by
      refine List.eq_nil_iff_forall_not_mem.mpr fun p hp => ?_
      have := Piece.mem_laid hlaid p hp
      have hzero : (LineIndex.ofText "").size = 0 := rfl
      omega
    simp only [ChunkBuild.build, hnil]
    rfl

end CodeIndex
