import CodeIndex.Proofs.Chunk.Partition
import CodeIndex.Proofs.Identity
/-!
# Chunks of one file are told apart

The chunks of a file begin at different lines, whatever its syntax tree claims, and the key of a
chunk tells the line at which it begins. So their identities differ, unless the hash confuses their
keys (`ChunkBuild.nodup_ids`).
-/

namespace CodeIndex.ChunkBuild

open CodeIndex.Number

/-- Pieces follow one another, and none begins behind the last line; an empty file counts as one
line. -/
theorem pairwise_pieces (limits : ChunkLimits) (index : LineIndex) (content : String)
    (tree : Option Syntax.Tree) :
    let pieces := orCover tree.isNone (piecesOf limits index content tree)
    pieces.Pairwise (fun p q => p.start < q.start) ∧ ∀ p ∈ pieces, p.start ≤ max index.size 1 := by
  have hlaid := piecesOf_laid limits index content tree
  intro pieces
  by_cases hnil : piecesOf limits index content tree = []
  · have hpieces : pieces = [coverPiece tree.isNone] := by
      simp only [pieces, hnil]
      rfl
    rw [hpieces]
    refine ⟨List.pairwise_singleton _ _, fun p hp => ?_⟩
    rw [List.mem_singleton.mp hp]
    exact Nat.le_max_right _ _
  · have hpieces : pieces = piecesOf limits index content tree := by
      simp only [pieces, orCover]
      rw [if_neg (by simpa using hnil)]
    rw [hpieces]
    refine ⟨(Piece.pairwise_laid hlaid).imp_of_mem fun {p q} hp hq hlt => ?_, fun p hp => ?_⟩
    · have := Piece.mem_laid hlaid p hp
      omega
    · have := Piece.mem_laid hlaid p hp
      omega

/-- The chunks of a file have different identities. -/
theorem nodup_ids (limits : ChunkLimits) (resource : Resource) (parsed : Parsed) (content : String)
    (hlines : (Lines.ofText content).length < count64)
    (hfree : Identity.IsCollisionFree
      ((build limits resource parsed content).chunks.map Chunk.key)) :
    ((build limits resource parsed content).chunks.map (·.id)).Nodup := by
  obtain ⟨hpairs, hbound⟩ :=
    pairwise_pieces limits (LineIndex.ofText content) content parsed.tree?
  have hchunks : (build limits resource parsed content).chunks
      = (orCover parsed.tree?.isNone (piecesOf limits (LineIndex.ofText content) content
          parsed.tree?)).mapIdx
            (chunkOf resource (LineIndex.ofText content) parsed.tree?.isNone) := rfl
  rw [hchunks] at hfree ⊢
  generalize orCover parsed.tree?.isNone
    (piecesOf limits (LineIndex.ofText content) content parsed.tree?) = pieces at *
  have hstarts : (pieces.mapIdx
      (chunkOf resource (LineIndex.ofText content) parsed.tree?.isNone)).Pairwise
        fun a b => a.startLine < b.startLine := by
    have hmap : (pieces.map fun p => (p.start, p.stop)).Pairwise fun a b => a.1 < b.1 :=
      List.pairwise_map.mpr hpairs
    rw [← map_lines_chunks resource (LineIndex.ofText content) parsed.tree?.isNone] at hmap
    rwa [List.pairwise_map] at hmap
  have hchunk : ∀ c ∈ pieces.mapIdx
      (chunkOf resource (LineIndex.ofText content) parsed.tree?.isNone),
      c.startLine < count64 ∧ c.resourceId = resource.id ∧ c.id = Identity.ofKey c.key := by
    intro c hc
    obtain ⟨i, hi, rfl⟩ := List.mem_mapIdx.mp hc
    have hstart := hbound _ (List.getElem_mem hi)
    rw [LineIndex.size_ofText] at hstart
    have hone : 1 < count64 := by decide
    exact ⟨Nat.lt_of_le_of_lt hstart (Nat.max_lt.mpr ⟨hlines, hone⟩), rfl, rfl⟩
  rw [List.Nodup, List.pairwise_map]
  refine hstarts.imp_of_mem fun {a b} ha hb hlt hid => ?_
  obtain ⟨hstart, howner, hida⟩ := hchunk a ha
  obtain ⟨hstart', howner', hidb⟩ := hchunk b hb
  have hkeys : a.key = b.key := hfree _ (List.mem_map_of_mem ha) _ (List.mem_map_of_mem hb)
    (hida.symm.trans (hid.trans hidb))
  rw [Chunk.key, Chunk.key, howner, howner'] at hkeys
  exact absurd (Identity.start_eq_of_chunkKey hstart hstart' hkeys) (Nat.ne_of_lt hlt)

end CodeIndex.ChunkBuild
