import CodeIndex.Proofs.Chunk.Cuts
import CodeIndex.Proofs.Chunk.Partition
/-!
# What goes over the budget

A chunk may exceed the token budget where its lines cannot be cut any further.
`unsplittable_of_over`: these are single lines, and lines of one unit without any units inside it.
Everything else is within the budget, whatever lines the units of the tree claim.

A window has more than one line only within the budget, and a cut that keeps a unit whole is within
the budget or of a unit without units inside it (`Cut.IsOf`). The cover of a file without any other
piece is a single line.
-/

namespace CodeIndex

open UnitTree

/-- The units of a file in their places; without a tree there are none. -/
def Parsed.units (parsed : Parsed) (content : String) : List Occurrence :=
  match parsed.tree? with
  | some t => occurrencesOfList [] (UnitTree.collect t content)
  | none => []

/-- Lines that the walk does not cut any further. -/
inductive IsUnsplittable (units : List Occurrence) (start stop : Nat) : Prop where
  | line : start = stop → IsUnsplittable units start stop
  /-- Lines of a unit without units inside it. -/
  | leaf (u : Occurrence) : u ∈ units → u.tree.nested = [] → u.tree.unit.startLine ≤ start →
      stop ≤ u.tree.unit.endLine → IsUnsplittable units start stop

/-! ### Windows -/

namespace Piece

variable {limits : ChunkLimits} {index : LineIndex} {p : Piece}

/-- A window over the budget is a single line. -/
theorem line_of_mem_windows {attribution : Attribution} {start stop maxLines : Nat}
    (hmax : 1 ≤ maxLines)
    (hp : p ∈ ofSpans attribution (index.windows start stop maxLines limits.maxTokens))
    (hover : limits.maxTokens < index.tokens p.start p.stop) : p.start = p.stop := by
  obtain ⟨span, hspan, rfl⟩ := List.mem_map.mp hp
  have hlaid : Laid index _ _ (ofSpans attribution _) :=
    laid_ofSpans (index.windows_tiles start stop maxLines limits.maxTokens)
  have hle : span.start ≤ span.stop := (mem_laid hlaid _ hp).2.1
  have hwithin := (index.within_windows start stop hmax limits.maxTokens span hspan).2
  refine Nat.le_antisymm hle (Nat.not_lt.mp fun hlt => ?_)
  exact Nat.not_lt.mpr (hwithin hlt) hover

theorem line_of_mem_gap {attribution : Attribution} {start stop : Nat}
    (hp : p ∈ gap limits index attribution start stop)
    (hover : limits.maxTokens < index.tokens p.start p.stop) : p.start = p.stop := by
  rw [gap] at hp
  split at hp
  · cases hp
  · rename_i first last htrim
    -- A range that is not blank has a line of the file, so the file has one.
    obtain ⟨hfirst, hle, hlast, -⟩ := index.trim_spec htrim
    have hsize : 1 ≤ index.size := by
      rw [LineIndex.clampStart] at hfirst
      rw [LineIndex.clampStop] at hlast
      omega
    exact line_of_mem_windows hsize hp hover

end Piece

/-! ### Pieces and chunks -/

/-- A piece over the budget is unsplittable. -/
theorem ChunkBuild.unsplittable_piecesOf {limits : ChunkLimits} {index : LineIndex}
    {content : String} (parsed : Parsed) {p : Piece}
    (hp : p ∈ piecesOf limits index content parsed.tree?)
    (hover : limits.maxTokens < index.tokens p.start p.stop) :
    IsUnsplittable (parsed.units content) p.start p.stop := by
  rw [Parsed.units]
  cases htree : parsed.tree? with
  | none =>
    rw [htree] at hp
    exact .line (Piece.line_of_mem_windows limits.windowLines_pos hp hover)
  | some t =>
    rw [htree, piecesOf, ← Cut.flatMap_pieces_ofForest] at hp
    obtain ⟨cut, hcut, hp⟩ := List.mem_flatMap.mp hp
    have hof := Cut.isOf_ofForest limits index _ cut hcut
    cases cut with
    | whole unit start stop =>
      obtain ⟨⟨hunit, hstart, hstop⟩, hleaf⟩ := hof
      obtain rfl := List.mem_singleton.mp hp
      exact .leaf unit hunit (hleaf hover) hstart hstop
    | gap unit start stop => exact .line (Piece.line_of_mem_gap hp hover)

/-- **Only unsplittable text goes over the budget**: a chunk with more tokens than allowed is a
single line, or lies inside a unit without units inside it. -/
theorem unsplittable_of_over (limits : ChunkLimits) (resource : Resource) (parsed : Parsed)
    (content : String) :
    ∀ c ∈ (ChunkBuild.build limits resource parsed content).chunks,
      limits.maxTokens < c.tokenCount →
        IsUnsplittable (parsed.units content) c.startLine c.endLine := by
  intro c hc hover
  obtain ⟨p, hp, hstart, hstop, -, hcontent, hcount⟩ :=
    ChunkBuild.exists_piece_of_mem _ _ _ _ c hc
  rw [hcount, hcontent, ← LineIndex.tokens_ofText] at hover
  rw [hstart, hstop]
  rw [ChunkBuild.orCover] at hp
  split at hp
  · rw [List.mem_singleton.mp hp]
    exact .line rfl
  · exact ChunkBuild.unsplittable_piecesOf parsed hp hover

/-- A function of two lines and a line behind it, both over a budget of one token. -/
theorem unsplittable_of_over_function :
    let t : Syntax.Tree :=
      ⟨"python", .python,
        #[⟨"module", none, 0, 26, 1, 3, none, false⟩,
          ⟨"function_definition", none, 0, 15, 1, 2, some 0, false⟩,
          ⟨"identifier", some "name", 4, 5, 1, 1, some 1, false⟩,
          ⟨"block", some "body", 10, 15, 2, 2, some 1, false⟩,
          ⟨"expression_statement", none, 16, 25, 3, 3, some 0, false⟩], by decide, _, rfl⟩
    let file := Resource.ofPath "/r" "a.py" .practice "python" .epoch
    let source := "def f():\n 12345\nx = 12345\n"
    let chunks := (ChunkBuild.build (.ofNats 1 80) file (.tree t) source).chunks
    chunks.map (fun c => (c.startLine, c.endLine)) = [(1, 2), (3, 3)] ∧
    (∀ c ∈ chunks, 1 < c.tokenCount) ∧
    ∀ c ∈ chunks, IsUnsplittable ((Parsed.tree t).units source) c.startLine c.endLine := by
  intro t file source chunks
  have hover : ∀ c ∈ chunks, 1 < c.tokenCount := by decide +kernel
  exact ⟨by decide +kernel, hover,
    fun c hc => unsplittable_of_over (.ofNats 1 80) file (.tree t) source c hc (hover c hc)⟩

end CodeIndex
