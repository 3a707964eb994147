import CodeIndex.Proofs.Store.Atomic
import CodeIndex.Proofs.Store.Writes
import Mathlib.Data.List.Flatten
import Mathlib.Data.List.Perm.Subperm
/-!
# Stores by what was saved to them

There are two kinds of stores. A store of either kind to which files were saved, none of them twice,
holds exactly these files: `Kind.holding` is that store, and saving one more file leads from one of
them to the next (`Kind.saveFile_holding`), as long as the files share no identity
(`Entry.AreApart`). Nothing is merged then, so the numbers of records are those of what was saved
(`Kind.counts_holding`).
-/

namespace CodeIndex.Store

open CodeIndex.Keyed

/-! ### Entries -/

/-- What is saved for one file. -/
structure Entry where
  resource : Resource
  chunks : List Chunk
  triples : List Triple

namespace Entry

/-- All chunks of some files. -/
def allChunks (es : List Entry) : List Chunk :=
  es.flatMap (·.chunks)

/-- All triples of some files. -/
def allTriples (es : List Entry) : List Triple :=
  es.flatMap (·.triples)

/-- Nothing that was saved for some files shares an identity, and all of it belongs to its file. -/
structure AreApart (es : List Entry) : Prop where
  resources : (es.map (·.resource.id)).Nodup
  chunks : ((allChunks es).map (·.id)).Nodup
  triples : ((allTriples es).map Triple.id).Nodup
  chunk_owner : ∀ e ∈ es, ∀ c ∈ e.chunks, c.resourceId = e.resource.id
  triple_owner : ∀ e ∈ es, ∀ t ∈ e.triples, t.resourceId = e.resource.id

namespace AreApart

variable {es es' : List Entry}

theorem sublist (h : AreApart es) (hsub : es'.Sublist es) : AreApart es' where
  resources := h.resources.sublist (hsub.map _)
  chunks := h.chunks.sublist ((hsub.flatMap _).map _)
  triples := h.triples.sublist ((hsub.flatMap _).map _)
  chunk_owner := fun e he => h.chunk_owner e (hsub.subset he)
  triple_owner := fun e he => h.triple_owner e (hsub.subset he)

theorem perm (h : AreApart es) (hperm : es'.Perm es) : AreApart es' where
  resources := (hperm.map _).nodup_iff.mpr h.resources
  chunks := ((hperm.flatMap_right _).map _).nodup_iff.mpr h.chunks
  triples := ((hperm.flatMap_right _).map _).nodup_iff.mpr h.triples
  chunk_owner := fun e he => h.chunk_owner e (hperm.subset he)
  triple_owner := fun e he => h.triple_owner e (hperm.subset he)

section Concat

variable {e : Entry} (h : AreApart (es ++ [e]))
include h

theorem id_not_mem : e.resource.id ∉ es.map (·.resource.id) := by
  have hnodup := h.resources
  rw [List.map_append, List.nodup_append] at hnodup
  exact fun hmem => hnodup.2.2 _ hmem _ (List.mem_singleton_self _) rfl

/-- The chunks of other files belong to other files. -/
theorem chunk_owner_ne : ∀ c ∈ allChunks es, c.resourceId ≠ e.resource.id := by
  intro c hc hid
  obtain ⟨e', he', hce'⟩ := List.mem_flatMap.mp hc
  refine h.id_not_mem (List.mem_map.mpr ⟨e', he', ?_⟩)
  rw [← hid, h.chunk_owner e' (List.mem_append_left _ he') c hce']

theorem triple_owner_ne : ∀ t ∈ allTriples es, t.resourceId ≠ e.resource.id := by
  intro t ht hid
  obtain ⟨e', he', hte'⟩ := List.mem_flatMap.mp ht
  refine h.id_not_mem (List.mem_map.mpr ⟨e', he', ?_⟩)
  rw [← hid, h.triple_owner e' (List.mem_append_left _ he') t hte']

end Concat

end AreApart

theorem allChunks_concat (es : List Entry) (e : Entry) :
    allChunks (es ++ [e]) = allChunks es ++ e.chunks := by
  rw [allChunks, List.flatMap_append, List.flatMap_singleton]
  rfl

theorem allTriples_concat (es : List Entry) (e : Entry) :
    allTriples (es ++ [e]) = allTriples es ++ e.triples := by
  rw [allTriples, List.flatMap_append, List.flatMap_singleton]
  rfl

end Entry

open Entry

/-! ### The store in memory -/

namespace Memory

/-- The store in memory that holds some files. -/
def holding (es : List Entry) : Memory where
  resources := es.map (·.resource)
  chunks := es.map fun e => (e.resource.id, e.chunks)
  triples := es.map fun e => (e.resource.id, e.triples)

/-- One more file is put behind the others. -/
theorem saveFile_holding {es : List Entry} {e : Entry} (h : AreApart (es ++ [e])) :
    api.saveFile e.resource e.chunks e.triples (holding es) = (holding (es ++ [e]), none) := by
  have hnew := h.id_not_mem
  have hresources : put (·.id) e.resource (holding es).resources
      = (holding es).resources ++ [e.resource] := by
    refine put_of_not_mem _ ?_
    rwa [holding, List.map_map]
  have hchunks : put (·.1) (e.resource.id, e.chunks) (holding es).chunks
      = (holding es).chunks ++ [(e.resource.id, e.chunks)] := by
    refine put_of_not_mem _ ?_
    rwa [holding, List.map_map]
  have htriples : put (·.1) (e.resource.id, e.triples) (holding es).triples
      = (holding es).triples ++ [(e.resource.id, e.triples)] := by
    refine put_of_not_mem _ ?_
    rwa [holding, List.map_map]
  have hdistinct : distinctChunks e.chunks = e.chunks := by
    have hnodup := h.chunks
    rw [allChunks_concat, List.map_append, List.nodup_append] at hnodup
    exact distinctChunks_of_nodup hnodup.2.1
  have hdistinct' : distinctTriples e.triples = e.triples := by
    have hnodup := h.triples
    rw [allTriples_concat, List.map_append, List.nodup_append] at hnodup
    exact distinctTriples_of_nodup hnodup.2.1
  show (putResource e.resource (putTriples e.resource.id e.triples
    (putChunks e.resource.id e.chunks (holding es))), none) = _
  rw [putChunks, putTriples, putResource, hdistinct, hdistinct', hresources, hchunks, htriples,
    holding, holding, List.map_append, List.map_append, List.map_append]
  rfl

end Memory

/-! ### The database -/

namespace Database

/-- The database that holds some files. -/
def holding (es : List Entry) : Database where
  created := true
  resources := (es.map (·.resource)).map ResourceRow.encode
  chunks := (allChunks es).map ChunkRow.encode
  triples := (allTriples es).map TripleRow.encode

/-- The rows of one more file are appended. -/
theorem saveFile_holding {es : List Entry} {e : Entry} (h : AreApart (es ++ [e])) :
    api.saveFile e.resource e.chunks e.triples (holding es) = (holding (es ++ [e]), none) := by
  have hnew : e.resource.id ∉ (es.map (·.resource)).map (·.id) := by
    rw [List.map_map]
    exact h.id_not_mem
  have hnodup : ((es.map (·.resource)).map (·.id)).Nodup := by
    rw [List.map_map]
    exact (h.sublist (List.sublist_append_left _ _)).resources
  have hplace : ∀ s ∈ es.map (·.resource), s.id = e.resource.id →
      s.repositoryRoot = e.resource.repositoryRoot ∧ s.relativePath = e.resource.relativePath :=
    fun s hs hid => absurd (List.mem_map.mpr ⟨s, hs, hid⟩) hnew
  have hlast : e ∈ es ++ [e] := List.mem_append_right _ (List.mem_singleton_self e)
  have hsave := saveFile_eq (d := holding es) rfl rfl hnodup hplace (h.chunk_owner e hlast)
    (h.triple_owner e hlast)
  have hchunks : Table.replaced chunkEncoding e.resource.id e.chunks (holding es).chunks
      = (allChunks (es ++ [e])).map ChunkRow.encode := by
    have hids := h.chunks
    rw [allChunks_concat] at hids ⊢
    exact Table.replaced_of_new h.chunk_owner_ne hids
  have htriples : Table.replaced tripleEncoding e.resource.id e.triples (holding es).triples
      = (allTriples (es ++ [e])).map TripleRow.encode := by
    have hids := h.triples
    rw [allTriples_concat] at hids ⊢
    exact Table.replaced_of_new h.triple_owner_ne hids
  have hresources : es.map (·.resource) ++ [e.resource] = (es ++ [e]).map (·.resource) := by
    rw [List.map_append, List.map_singleton]
  rw [put_of_not_mem _ hnew, hresources, hchunks, htriples] at hsave
  exact hsave

end Database

/-! ### Both -/

/-- The kinds of stores that there are. -/
inductive Kind where
  | memory
  | database
  deriving DecidableEq, Repr

namespace Kind

/-- What a store of the kind is. -/
def State : Kind → Type
  | memory => Memory
  | database => Database

/-- The writes of the kind. -/
def api : (kind : Kind) → Api kind.State
  | memory => Memory.api
  | database => Database.api

/-- A store of the kind to which nothing was saved; the tables of a database exist. -/
def empty : (kind : Kind) → kind.State
  | memory => Memory.empty
  | database => Database.empty

/-- The numbers of resources, chunks and triples that a store tells. -/
def counts : (kind : Kind) → kind.State → Except Fault (Nat × Nat × Nat)
  | memory, m => .ok m.counts
  | database, d => d.counts

/-- The store of the kind that holds some files. -/
def holding : (kind : Kind) → List Entry → kind.State
  | memory, es => Memory.holding es
  | database, es => Database.holding es

variable (kind : Kind)

theorem holding_nil : kind.holding [] = kind.empty := by
  cases kind <;> rfl

/-- Whichever kind it is, the store goes on to hold one more file. -/
theorem saveFile_holding {es : List Entry} {e : Entry} (h : AreApart (es ++ [e])) :
    kind.api.saveFile e.resource e.chunks e.triples (kind.holding es)
      = (kind.holding (es ++ [e]), none) := by
  cases kind with
  | memory => exact Memory.saveFile_holding h
  | database => exact Database.saveFile_holding h

/-- A store tells the numbers of what was saved to it. -/
theorem counts_holding (es : List Entry) :
    kind.counts (kind.holding es)
      = .ok (es.length, (allChunks es).length, (allTriples es).length) := by
  cases kind with
  | memory =>
    simp [counts, holding, Memory.counts, Memory.holding, allChunks, allTriples,
      List.flatMap_map]
  | database =>
    simp [counts, holding, Database.counts, Database.readTable, Database.holding]

end Kind

end CodeIndex.Store
