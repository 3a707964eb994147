import CodeIndex.Graph.Extract
import CodeIndex.Proofs.Chunk.Partition
/-!
# Files without a tree

A file that no parser claims, or whose parser failed, is cut into windows. `fallback_lossless`: the
windows follow one another from the first line to the last, their texts in order are the file, and
each keeps to the limits of lines and tokens unless it is a single line. Nothing else is claimed
about such a file: its chunks carry no names, and it has no relationships.

An empty file has one window at line one, as if it had a line without text, so that what is said of
windows holds of it too (`exists_spans_fallback`).
-/

namespace CodeIndex

/-- The lines of a chunk. -/
def Chunk.span (c : Chunk) : LineSpan := ⟨c.startLine, c.endLine, c.oversized⟩

/-- Chunks that are the windows of a text. -/
structure IsWindowed (limits : ChunkLimits) (content : String) (chunks : List Chunk) : Prop where
  /-- Chunks are numbered from zero. -/
  seq_eq : chunks.map (·.seq) = List.range chunks.length
  /-- Chunks say that there was no tree, and nothing about what their lines belong to. -/
  plain : ∀ c ∈ chunks,
    c.isFallback = true ∧ c.kind = .text ∧ c.functionName = none ∧ c.className = none
  /-- Chunks follow one another from the first line to the last; an empty text counts as one
  line. -/
  tiles : LineIndex.Tiles 1 (max (Lines.ofText content).length 1) (chunks.map Chunk.span)
  /-- Nothing of the text is lost, repeated or moved. -/
  join_content : String.join (chunks.map (·.content)) = content
  lines_le : ∀ c ∈ chunks, c.endLine + 1 - c.startLine ≤ limits.windowLines
  /-- The estimate is that of the text, and within the budget for every chunk but single lines. -/
  tokens_le : ∀ c ∈ chunks, c.tokenCount = estimateTokens c.content ∧
    (c.startLine < c.endLine → c.tokenCount ≤ limits.maxTokens)

/-! ### Windows of a file -/

/-- The pieces of a file without a tree are spans that follow one another and keep to the limits. -/
theorem exists_spans_fallback (limits : ChunkLimits) (index : LineIndex) :
    ∃ spans, ChunkBuild.orCover true (Piece.fallback limits index) = Piece.ofSpans .plain spans ∧
      LineIndex.Tiles 1 (max index.size 1) spans ∧
      ∀ span ∈ spans, index.Within limits.windowLines limits.maxTokens span.start span.stop := by
  have htiles := index.windows_tiles 1 index.size limits.windowLines limits.maxTokens
  have hwithin := index.within_windows 1 index.size limits.windowLines_pos limits.maxTokens
  have hclamp : index.clampStop index.size = index.size := Nat.min_self _
  rw [hclamp] at htiles
  cases hspans : index.windows 1 index.size limits.windowLines limits.maxTokens with
  | nil =>
    -- There is no line, and the piece that covers the file stands for one.
    rw [hspans] at htiles
    have hsize : index.size < 1 := htiles
    have hmax : max index.size 1 = 1 := by omega
    refine ⟨[⟨1, 1, false⟩], ?_, ?_, ?_⟩
    · rw [Piece.fallback, hspans]
      rfl
    · rw [hmax]
      exact ⟨rfl, Nat.le_refl _, Nat.le_refl _, Nat.lt_succ_self _⟩
    · intro span hspan
      obtain rfl := List.mem_singleton.mp hspan
      have hlines := limits.windowLines_pos
      exact ⟨Nat.lt_add_of_pos_right hlines, fun h => absurd h (Nat.lt_irrefl 1)⟩
  | cons span spans =>
    rw [hspans] at htiles hwithin
    have hsize : 1 ≤ index.size := by
      obtain ⟨hstart, hle, hstop, -⟩ := htiles
      rw [LineIndex.clampStart] at hle
      omega
    refine ⟨span :: spans, ?_, ?_, hwithin⟩
    · rw [Piece.fallback, hspans]
      rfl
    · rw [Nat.max_eq_left hsize]
      exact htiles

/-! ### Chunks of windows -/

namespace ChunkBuild

/-- Spans that follow one another and keep to the limits become the windows of the text. -/
theorem isWindowed_ofSpans (limits : ChunkLimits) (resource : Resource) (content : String)
    {spans : List LineSpan}
    (htiles : LineIndex.Tiles 1 (max (LineIndex.ofText content).size 1) spans)
    (hwithin : ∀ span ∈ spans, (LineIndex.ofText content).Within limits.windowLines
      limits.maxTokens span.start span.stop) :
    IsWindowed limits content
      ((Piece.ofSpans .plain spans).mapIdx
        (chunkOf resource (LineIndex.ofText content) true)) := by
  have hmem : ∀ c ∈ (Piece.ofSpans .plain spans).mapIdx
      (chunkOf resource (LineIndex.ofText content) true), ∃ span ∈ spans, ∃ seq,
        c = chunkOf resource (LineIndex.ofText content) true seq
          ⟨span.start, span.stop, .plain, span.oversized⟩ := by
    intro c hc
    obtain ⟨i, hi, rfl⟩ := List.mem_mapIdx.mp hc
    obtain ⟨span, hspan, hpiece⟩ := List.mem_map.mp (List.getElem_mem hi)
    exact ⟨span, hspan, i, by rw [hpiece]⟩
  refine ⟨?_, ?_, ?_, ?_, ?_, ?_⟩
  · rw [map_seq_chunks, List.length_mapIdx]
  · intro c hc
    obtain ⟨span, -, seq, rfl⟩ := hmem c hc
    exact ⟨rfl, rfl, rfl, rfl⟩
  · rw [map_chunks (g := fun p => ⟨p.start, p.stop, p.oversized⟩) _ fun _ _ => rfl, Piece.ofSpans,
      List.map_map, ← LineIndex.size_ofText]
    have hid : ((fun p : Piece => (⟨p.start, p.stop, p.oversized⟩ : LineSpan)) ∘
        fun span => ⟨span.start, span.stop, .plain, span.oversized⟩) = id := rfl
    rw [hid, List.map_id]
    exact htiles
  · rw [map_chunks (g := fun p => (LineIndex.ofText content).slice p.start p.stop) _
      fun _ _ => rfl, Piece.ofSpans, List.map_map]
    have hjoin := (LineIndex.ofText content).join_slices htiles
    rw [LineIndex.slice_all content (Nat.le_max_left _ _)] at hjoin
    exact hjoin
  · intro c hc
    obtain ⟨span, hspan, seq, rfl⟩ := hmem c hc
    have hlines := (hwithin span hspan).1
    show span.stop + 1 - span.start ≤ limits.windowLines
    omega
  · intro c hc
    obtain ⟨span, hspan, seq, rfl⟩ := hmem c hc
    refine ⟨rfl, fun hlt => ?_⟩
    have htokens := (hwithin span hspan).2 hlt
    rw [LineIndex.tokens_ofText] at htokens
    exact htokens

end ChunkBuild

/-- **Windows lose nothing**: a file without a tree is cut into consecutive windows within the
limits, whose texts in order are the file. It has no relationships, and only a parser that failed is
reported, once. -/
theorem fallback_lossless (limits : ChunkLimits) (resource : Resource) (parsed : Parsed)
    (content : String) (hparsed : ∀ t, parsed ≠ .tree t) :
    let build := ChunkBuild.build limits resource parsed content
    IsWindowed limits content build.chunks ∧
    Graph.extract resource build.tree content = ⟨[], none⟩ ∧
    (parsed = .unsupported → build.warnings = []) ∧
    (∀ fault, parsed = .failed fault →
      build.warnings = ["parse failed, fallback chunking used: " ++ fault.message]) := by
  have htree : parsed.tree? = none := by
    cases parsed with
    | unsupported => rfl
    | failed fault => rfl
    | tree t => exact absurd rfl (hparsed t)
  obtain ⟨spans, hpieces, htiles, hwithin⟩ :=
    exists_spans_fallback limits (LineIndex.ofText content)
  have hchunks : (ChunkBuild.build limits resource parsed content).chunks
      = (Piece.ofSpans .plain spans).mapIdx
          (ChunkBuild.chunkOf resource (LineIndex.ofText content) true) := by
    rw [← hpieces, ChunkBuild.build, htree]
    rfl
  intro build
  refine ⟨?_, ?_, ?_, ?_⟩
  · show IsWindowed limits content (ChunkBuild.build limits resource parsed content).chunks
    rw [hchunks]
    exact ChunkBuild.isWindowed_ofSpans limits resource content htiles hwithin
  · show Graph.extract resource parsed.tree? content = _
    rw [htree]
    rfl
  · rintro rfl
    rfl
  · rintro fault rfl
    rfl

/-- Four lines, one of them blank and the last one without its newline, of which two fit into a
window: the second window ends early, because its next line would exceed the budget of tokens. -/
theorem fallback_lossless_three_windows :
    let file := Resource.ofPath "/r" "a.py" .practice "python" .epoch
    let parsed : Parsed := .failed (.parseTimeout 5)
    let build := ChunkBuild.build (.ofNats 1 2) file parsed "é\n\nbcd\nef"
    (∀ t, parsed ≠ .tree t) ∧
    build.chunks.map (fun c => (c.startLine, c.endLine, c.content))
      = [(1, 2, "é\n\n"), (3, 3, "bcd\n"), (4, 4, "ef")] ∧
    IsWindowed (.ofNats 1 2) "é\n\nbcd\nef" build.chunks ∧
    Graph.extract file build.tree "é\n\nbcd\nef" = ⟨[], none⟩ ∧
    build.warnings = ["parse failed, fallback chunking used: Parse timed out after 5 ms"] := by
  intro file parsed build
  have hparsed : ∀ t, parsed ≠ .tree t := fun t => Parsed.noConfusion
  obtain ⟨hwindowed, hextract, -, hwarnings⟩ :=
    fallback_lossless (.ofNats 1 2) file parsed "é\n\nbcd\nef" hparsed
  refine ⟨hparsed, ?_, hwindowed, hextract, (hwarnings _ rfl).trans ?_⟩
  · decide +kernel
  · decide

end CodeIndex
