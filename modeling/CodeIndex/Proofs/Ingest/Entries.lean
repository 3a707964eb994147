import CodeIndex.Proofs.Ingest.Apart
import CodeIndex.Proofs.Store.Entries
import Mathlib.Data.List.Nodup
/-!
# What a file leaves in the store

How a file ends and what is saved for it depends on the file and on what all files of its task have
in common, and on nothing else: the parsers that a worker has made before are those that it would
make again (`ParserCache.IsFaithful`), and a store takes in whatever shares no identity with what it
holds. So a file that is processed adds its entry to the store (`process_holding`).

Files with different paths share no identity, unless the hash confuses two of their keys
(`areApart_entries`).
-/

/-! ### Entries and their keys -/

namespace CodeIndex.Store.Entry

/-- Everything that is hashed to identify what is saved for a file. -/
def keys (e : Entry) : List (List UInt8) :=
  e.resource.key :: (e.chunks.map Chunk.key ++ e.triples.map Triple.key)

/-- What is saved for a file below a root is identified by keys and belongs to the file. -/
structure IsKeyed (root : String) (e : Entry) : Prop where
  root_eq : e.resource.repositoryRoot = root
  id_eq : e.resource.id = Identity.ofKey e.resource.key
  chunks : ∀ c ∈ e.chunks, c.resourceId = e.resource.id ∧ c.id = Identity.ofKey c.key
  triples : ∀ t ∈ e.triples, t.resourceId = e.resource.id
  chunk_ids : (e.chunks.map (·.id)).Nodup
  triple_ids : (e.triples.map Triple.id).Nodup

section Pair

variable {root : String} {e e' : Entry} {allKeys : List (List UInt8)}
  (h : e.IsKeyed root) (h' : e'.IsKeyed root)
  (hpath : e.resource.relativePath ≠ e'.resource.relativePath)
  (hfree : Identity.IsCollisionFree allKeys) (hkeys : e.keys ⊆ allKeys) (hkeys' : e'.keys ⊆ allKeys)
include h h' hpath hfree hkeys hkeys'

/-- Files at different paths below one root have different identities, even if the root is not
plain. -/
theorem id_ne : e.resource.id ≠ e'.resource.id := by
  intro hid
  rw [h.id_eq, h'.id_eq] at hid
  have hkey := hfree _ (hkeys List.mem_cons_self) _ (hkeys' List.mem_cons_self) hid
  rw [Resource.key, Resource.key, h.root_eq, h'.root_eq, Identity.resourceKey,
    Identity.resourceKey] at hkey
  exact hpath (Text.octets_inj (List.cons.inj (List.append_cancel_left hkey)).2)

omit hpath hfree hkeys hkeys' in
theorem size_eq : e.resource.id.utf8ByteSize = e'.resource.id.utf8ByteSize := by
  rw [h.id_eq, h'.id_eq, Identity.utf8ByteSize_ofKey, Identity.utf8ByteSize_ofKey]

theorem disjoint_chunks : (e.chunks.map (·.id)).Disjoint (e'.chunks.map (·.id)) := by
  intro id hmem hmem'
  obtain ⟨c, hc, rfl⟩ := List.mem_map.mp hmem
  obtain ⟨c', hc', hid⟩ := List.mem_map.mp hmem'
  refine Chunk.id_ne (id_ne h h' hpath hfree hkeys hkeys') (size_eq h h') hfree (hkeys ?_)
    (hkeys' ?_) (h.chunks c hc) (h'.chunks c' hc') hid.symm
  · exact List.mem_cons_of_mem _ (List.mem_append_left _ (List.mem_map_of_mem hc))
  · exact List.mem_cons_of_mem _ (List.mem_append_left _ (List.mem_map_of_mem hc'))

theorem disjoint_triples : (e.triples.map Triple.id).Disjoint (e'.triples.map Triple.id) := by
  intro id hmem hmem'
  obtain ⟨t, ht, rfl⟩ := List.mem_map.mp hmem
  obtain ⟨t', ht', hid⟩ := List.mem_map.mp hmem'
  refine Triple.id_ne (id_ne h h' hpath hfree hkeys hkeys') (size_eq h h') hfree (hkeys ?_)
    (hkeys' ?_) (h.triples t ht) (h'.triples t' ht') hid.symm
  · exact List.mem_cons_of_mem _ (List.mem_append_right _ (List.mem_map_of_mem ht))
  · exact List.mem_cons_of_mem _ (List.mem_append_right _ (List.mem_map_of_mem ht'))

end Pair

/-- Files at different paths below one root share no identity. -/
theorem areApart_of_isKeyed {root : String} {es : List Entry} (hkeyed : ∀ e ∈ es, e.IsKeyed root)
    (hpaths : (es.map (·.resource.relativePath)).Nodup)
    (hfree : Identity.IsCollisionFree (es.flatMap keys)) : AreApart es := by
  have hkeys : ∀ e ∈ es, e.keys ⊆ es.flatMap keys :=
    fun e he _ hkey => List.mem_flatMap_of_mem he hkey
  rw [List.Nodup, List.pairwise_map] at hpaths
  exact {
    resources := by
      rw [List.Nodup, List.pairwise_map]
      exact hpaths.imp_of_mem fun he he' hpath =>
        id_ne (hkeyed _ he) (hkeyed _ he') hpath hfree (hkeys _ he) (hkeys _ he')
    chunks := by
      rw [allChunks, List.map_flatMap, List.nodup_flatMap]
      exact ⟨fun e he => (hkeyed e he).chunk_ids, hpaths.imp_of_mem fun he he' hpath =>
        disjoint_chunks (hkeyed _ he) (hkeyed _ he') hpath hfree (hkeys _ he) (hkeys _ he')⟩
    triples := by
      rw [allTriples, List.map_flatMap, List.nodup_flatMap]
      exact ⟨fun e he => (hkeyed e he).triple_ids, hpaths.imp_of_mem fun he he' hpath =>
        disjoint_triples (hkeyed _ he) (hkeyed _ he') hpath hfree (hkeys _ he) (hkeys _ he')⟩
    chunk_owner := fun e he c hc => ((hkeyed e he).chunks c hc).1
    triple_owner := fun e he => (hkeyed e he).triples }

end CodeIndex.Store.Entry

namespace CodeIndex.Ingest

open CodeIndex.Number CodeIndex.Store

variable {σ : Type}

/-! ### Parsers that were made before -/

/-- Every parser that a worker has made is the one that its language has. -/
def ParserCache.IsFaithful (languages : Language.Registry) (cache : ParserCache) : Prop :=
  ∀ language parser, cache.lookup language = some parser →
    languages.parser? language = .ok (some parser)

theorem ParserCache.isFaithful_nil (languages : Language.Registry) :
    IsFaithful languages [] :=
  nofun

section Parsers

variable {languages : Language.Registry} {cache : ParserCache}
  (h : cache.IsFaithful languages) (language : String)
include h

/-- A worker with faithful parsers obtains what a fresh worker would. -/
theorem obtainParser_eq :
    obtainParser languages language cache
      = ((obtainParser languages language []).1, (obtainParser languages language []).2.1,
        (obtainParser languages language cache).2.2) := by
  simp only [obtainParser, List.lookup_nil]
  cases hlookup : cache.lookup language with
  | some parser => rw [h language parser hlookup]
  | none => rcases languages.parser? language with fault | (_ | parser) <;> rfl

/-- A parser that is made is faithful. -/
theorem isFaithful_obtainParser :
    ParserCache.IsFaithful languages (obtainParser languages language cache).2.2 := by
  rw [obtainParser]
  split
  · exact h
  · split
    · rename_i parser hmade
      intro language' parser' hlookup
      rw [List.lookup_cons] at hlookup
      split at hlookup
      · rename_i heq
        rw [beq_iff_eq.mp heq, hmade, Option.some.inj hlookup]
      · exact h language' parser' hlookup
    · exact h
    · exact h

end Parsers

section Analysis

variable {p : Processor σ} {cache : ParserCache} (h : cache.IsFaithful p.languages)
  (ctx : Context) (path : String) (bytes : List UInt8)
include h

/-- What is computed for a file does not depend on the worker. -/
theorem analyze_eq :
    (analyze p ctx path bytes cache).1 = (analyze p ctx path bytes []).1 := by
  rw [analyze, obtainParser_eq h]
  rfl

theorem isFaithful_analyze :
    ParserCache.IsFaithful p.languages (analyze p ctx path bytes cache).2 :=
  isFaithful_obtainParser h _

end Analysis

/-! ### One file -/

/-- What is saved for a file, if it can be read. -/
def saved? (p : Processor σ) (ctx : Context) (file : Source.File) : Option Entry :=
  match file.content with
  | .ok bytes =>
    let a := (analyze p ctx file.path bytes []).1
    some ⟨{ a.resource with status := .completed }, a.chunks, a.triples⟩
  | .error _ => none

/-- How a file ends if what is computed for it can be saved. -/
def outcome (p : Processor σ) (ctx : Context) (file : Source.File) : Outcome :=
  match file.content with
  | .ok bytes =>
    let a := (analyze p ctx file.path bytes []).1
    .ingested file.path a.chunks.length a.triples.length a.fallback
  | .error cause => .failed file.path (.io cause)

/-- What is saved for those of some files that can be read. -/
def entries (p : Processor σ) (ctx : Context) (files : List Source.File) : List Entry :=
  files.filterMap (saved? p ctx)

/-- How some files end if what is computed for them can be saved. -/
def outcomes (p : Processor σ) (ctx : Context) (files : List Source.File) : List Outcome :=
  files.map (outcome p ctx)

/-- A file that is processed ends as it has to and adds its entry to what the store holds. -/
theorem process_holding {kind : Store.Kind} {p : Processor kind.State} (hstore : p.store = kind.api)
    (ctx : Context) {done : List Source.File} {file : Source.File}
    (hapart : Entry.AreApart (entries p ctx (done ++ [file]))) {cache : ParserCache}
    (hcache : cache.IsFaithful p.languages) {d : Desk kind.State}
    (hd : d.store = kind.holding (entries p ctx done)) :
    (process p ctx file cache d).1 = outcome p ctx file ∧
    ParserCache.IsFaithful p.languages (process p ctx file cache d).2.1 ∧
    (process p ctx file cache d).2.2.store = kind.holding (entries p ctx (done ++ [file])) := by
  rw [entries, List.filterMap_append, ← entries] at hapart ⊢
  cases hcontent : file.content with
  | error cause =>
    have hnone : saved? p ctx file = none := by rw [saved?, hcontent]
    rw [List.filterMap_cons_none hnone, List.filterMap_nil, List.append_nil, process, outcome,
      hcontent]
    exact ⟨rfl, hcache, hd⟩
  | ok bytes =>
    have hsome : saved? p ctx file = some
        ⟨{ (analyze p ctx file.path bytes []).1.resource with status := .completed },
          (analyze p ctx file.path bytes []).1.chunks,
          (analyze p ctx file.path bytes []).1.triples⟩ := by
      rw [saved?, hcontent]
    rw [List.filterMap_cons_some hsome, List.filterMap_nil] at hapart ⊢
    have hsave := kind.saveFile_holding hapart
    rw [process, outcome, hcontent]
    simp only [save, analyze_eq hcache, hstore, hd]
    rw [hsave]
    exact ⟨rfl, isFaithful_analyze hcache ctx file.path bytes, rfl⟩

/-! ### Many files -/

theorem saved?_eq_some {p : Processor σ} {ctx : Context} {file : Source.File} {e : Entry}
    (h : saved? p ctx file = some e) :
    ∃ bytes, file.content = .ok bytes ∧
      e = ⟨{ (analyze p ctx file.path bytes []).1.resource with status := .completed },
        (analyze p ctx file.path bytes []).1.chunks,
        (analyze p ctx file.path bytes []).1.triples⟩ := by
  rw [saved?] at h
  split at h
  · exact ⟨_, ‹_›, (Option.some.inj h).symm⟩
  · cases h

section Files

variable (p : Processor σ) (ctx : Context) {files : List Source.File}

/-- What is saved for a file is identified by its keys. -/
theorem isKeyed_of_mem_entries
    (hsize : ∀ file ∈ files, ∀ bytes, file.content = .ok bytes → bytes.length < count64)
    (hfree : Identity.IsCollisionFree ((entries p ctx files).flatMap Entry.keys)) :
    ∀ e ∈ entries p ctx files, e.IsKeyed ctx.repositoryRoot := by
  intro e he
  have hkeys : e.keys ⊆ (entries p ctx files).flatMap Entry.keys :=
    fun _ hkey => List.mem_flatMap_of_mem he hkey
  obtain ⟨file, hfile, hentry⟩ := List.mem_filterMap.mp he
  obtain ⟨bytes, hcontent, rfl⟩ := saved?_eq_some hentry
  exact {
    root_eq := rfl
    id_eq := rfl
    chunks := fun c hc => ChunkBuild.mem_chunks hc
    triples := fun t ht => Graph.resourceId_of_mem_extract ht
    chunk_ids := by
      refine nodup_chunks_analyze p ctx file.path bytes [] (hsize file hfile bytes hcontent) ?_
      refine (hfree.subset hkeys).subset fun key hkey => ?_
      exact List.mem_cons_of_mem _ (List.mem_append_left _ hkey)
    triple_ids := nodup_triples_analyze p ctx file.path bytes [] }

/-- Files with different paths share no identity. -/
theorem areApart_entries (hpaths : (files.map (·.path)).Nodup)
    (hsize : ∀ file ∈ files, ∀ bytes, file.content = .ok bytes → bytes.length < count64)
    (hfree : Identity.IsCollisionFree ((entries p ctx files).flatMap Entry.keys)) :
    Entry.AreApart (entries p ctx files) := by
  refine Entry.areApart_of_isKeyed (isKeyed_of_mem_entries p ctx hsize hfree) ?_ hfree
  rw [List.Nodup, List.pairwise_map] at hpaths ⊢
  refine hpaths.filterMap (saved? p ctx) fun file file' hne e he e' he' => ?_
  obtain ⟨_, -, rfl⟩ := saved?_eq_some he
  obtain ⟨_, -, rfl⟩ := saved?_eq_some he'
  exact hne

end Files

end CodeIndex.Ingest
