import CodeIndex.Proofs.Graph.Triples
import CodeIndex.Proofs.Ingest.AllOrNothing
/-!
# Records are told apart

`identities_tell_apart`: what is hashed for a record tells everything that identifies it, so two
records share an identity only where the hash itself confuses their keys. Of texts that are closed
by a zero octet this needs that they are plain; of a resource before the numbers of a chunk, that
its identity is as long as any other.

Within a file the chunks differ because they begin at different lines (`ChunkBuild.nodup_ids`) and
the triples because the extractor drops repetitions (`Ingest.nodup_ids_extract`). Across files both
differ because every key begins with the file it belongs to (`Chunk.id_ne`, `Triple.id_ne`).
-/

namespace CodeIndex

open CodeIndex.Number

/-! ### Different files -/

/-- Two resources that are different files, each identified by its place, with plain roots. -/
structure Resource.AreApart (r r' : Resource) : Prop where
  identified : r.id = Identity.ofKey r.key
  identified' : r'.id = Identity.ofKey r'.key
  plain : Text.IsPlain r.repositoryRoot
  plain' : Text.IsPlain r'.repositoryRoot
  place_ne : ¬ (r.repositoryRoot = r'.repositoryRoot ∧ r.relativePath = r'.relativePath)

variable {r r' : Resource} {keys : List (List UInt8)}

namespace Resource.AreApart

/-- Different files have different identities. -/
theorem id_ne (h : r.AreApart r') (hfree : Identity.IsCollisionFree keys) (hkey : r.key ∈ keys)
    (hkey' : r'.key ∈ keys) : r.id ≠ r'.id := by
  intro hid
  rw [h.identified, h.identified'] at hid
  exact h.place_ne (Identity.resourceKey_inj h.plain h.plain' (hfree _ hkey _ hkey' hid))

/-- Their identities are as long as one another. -/
theorem size_eq (h : r.AreApart r') : r.id.utf8ByteSize = r'.id.utf8ByteSize := by
  rw [h.identified, h.identified', Identity.utf8ByteSize_ofKey, Identity.utf8ByteSize_ofKey]

end Resource.AreApart

/-! ### Owners -/

/-- A chunk of a file belongs to the file and is identified by its key. -/
theorem ChunkBuild.mem_chunks {limits : ChunkLimits} {parsed : Parsed} {content : String}
    {c : Chunk} (h : c ∈ (build limits r parsed content).chunks) :
    c.resourceId = r.id ∧ c.id = Identity.ofKey c.key := by
  obtain ⟨i, hi, rfl⟩ := List.mem_mapIdx.mp h
  exact ⟨rfl, rfl⟩

/-- Chunks of different files have different identities. -/
theorem Chunk.id_ne {c c' : Chunk} (hne : r.id ≠ r'.id)
    (hsize : r.id.utf8ByteSize = r'.id.utf8ByteSize) (hfree : Identity.IsCollisionFree keys)
    (hkey : c.key ∈ keys) (hkey' : c'.key ∈ keys)
    (h : c.resourceId = r.id ∧ c.id = Identity.ofKey c.key)
    (h' : c'.resourceId = r'.id ∧ c'.id = Identity.ofKey c'.key) : c.id ≠ c'.id := by
  rw [h.2, h'.2]
  exact Identity.ofKey_ne_of_owns hsize hne hfree hkey hkey' (h.1 ▸ c.owns_key) (h'.1 ▸ c'.owns_key)

/-- Triples of different files have different identities. -/
theorem Triple.id_ne {t t' : Triple} (hne : r.id ≠ r'.id)
    (hsize : r.id.utf8ByteSize = r'.id.utf8ByteSize) (hfree : Identity.IsCollisionFree keys)
    (hkey : t.key ∈ keys) (hkey' : t'.key ∈ keys) (h : t.resourceId = r.id)
    (h' : t'.resourceId = r'.id) : t.id ≠ t'.id :=
  Identity.ofKey_ne_of_owns hsize hne hfree hkey hkey' (h ▸ t.owns_key) (h' ▸ t'.owns_key)

/-- The keys of two files are followed by those of their records. -/
theorem mem_keys {α : Type} {key : α → List UInt8} {k k' : List UInt8} {xs : List α} {x : α}
    (hx : x ∈ xs) : key x ∈ k :: k' :: xs.map key :=
  List.mem_cons_of_mem _ (List.mem_cons_of_mem _ (List.mem_map_of_mem hx))

/-! ### The result -/

/-- **Identities conflate nothing**: what is hashed for a record tells what identifies it, and
unless the hash confuses two keys, the chunks and triples of a file differ from each other and from
those of every other file. -/
theorem identities_tell_apart :
    -- The key of a resource tells its place.
    (∀ root root' path path' : String, Text.IsPlain root → Text.IsPlain root' →
      Identity.resourceKey root path = Identity.resourceKey root' path' →
      root = root' ∧ path = path') ∧
    -- The key of a chunk tells its resource, its lines and the hash of its text.
    (∀ (resource resource' hash hash' : String) (start start' stop stop' : Nat),
      resource.utf8ByteSize = resource'.utf8ByteSize →
      start < count64 → start' < count64 → stop < count64 → stop' < count64 →
      Identity.chunkKey resource start stop hash = Identity.chunkKey resource' start' stop' hash' →
      resource = resource' ∧ start = start' ∧ stop = stop' ∧ hash = hash') ∧
    -- The key of a triple tells all six parts; it is enough that one of two triples is plain.
    (∀ t t' : Triple, t.IsPlain → t.line < count64 → t'.line < count64 → t.key = t'.key →
      t.resourceId = t'.resourceId ∧ t.subject = t'.subject ∧ t.predicate = t'.predicate ∧
        t.object = t'.object ∧ t.targetSymbol = t'.targetSymbol ∧ t.line = t'.line) ∧
    -- Within one file.
    (∀ (limits : ChunkLimits) (r : Resource) (parsed : Parsed) (content : String),
      let cs := (ChunkBuild.build limits r parsed content).chunks
      (Lines.ofText content).length < count64 → Identity.IsCollisionFree (cs.map Chunk.key) →
      (cs.map (·.id)).Nodup) ∧
    (∀ (r : Resource) (tree : Option Syntax.Tree) (source : String),
      ((Graph.extract r tree source).triples.map Triple.id).Nodup) ∧
    -- Across two files.
    (∀ r r' : Resource, r.AreApart r' →
      (∀ (limits limits' : ChunkLimits) (parsed parsed' : Parsed) (content content' : String),
        let cs := (ChunkBuild.build limits r parsed content).chunks
        let cs' := (ChunkBuild.build limits' r' parsed' content').chunks
        Identity.IsCollisionFree (r.key :: r'.key :: (cs ++ cs').map Chunk.key) →
        ∀ c ∈ cs, ∀ c' ∈ cs', c.id ≠ c'.id) ∧
      (∀ (tree tree' : Option Syntax.Tree) (source source' : String),
        let ts := (Graph.extract r tree source).triples
        let ts' := (Graph.extract r' tree' source').triples
        Identity.IsCollisionFree (r.key :: r'.key :: (ts ++ ts').map Triple.key) →
        ∀ t ∈ ts, ∀ t' ∈ ts', t.id ≠ t'.id)) := by
  refine ⟨fun _ _ _ _ => Identity.resourceKey_inj, fun _ _ _ _ _ _ _ _ => Identity.chunkKey_inj,
    fun _ _ => Triple.key_inj, ChunkBuild.nodup_ids, Ingest.nodup_ids_extract,
    fun r r' hapart => ⟨?_, ?_⟩⟩
  · intro limits limits' parsed parsed' content content' cs cs' hfree c hc c' hc'
    have hid := hapart.id_ne hfree (by simp) (by simp)
    exact Chunk.id_ne hid hapart.size_eq hfree (mem_keys (List.mem_append_left _ hc))
      (mem_keys (List.mem_append_right _ hc')) (ChunkBuild.mem_chunks hc) (ChunkBuild.mem_chunks hc')
  · intro tree tree' source source' ts ts' hfree t ht t' ht'
    have hid := hapart.id_ne hfree (by simp) (by simp)
    exact Triple.id_ne hid hapart.size_eq hfree (mem_keys (List.mem_append_left _ ht))
      (mem_keys (List.mem_append_right _ ht')) (Graph.resourceId_of_mem_extract ht)
      (Graph.resourceId_of_mem_extract ht')

/-- One text in two files of a repository: there are a chunk and a chunk, told apart. -/
theorem identities_tell_apart_twins :
    let r := Resource.ofPath "/r" "a.txt" .practice unknownLanguage .epoch
    let r' := Resource.ofPath "/r" "b.txt" .practice unknownLanguage .epoch
    let cs := (ChunkBuild.build (.ofNats 1 1) r .unsupported "x").chunks
    let cs' := (ChunkBuild.build (.ofNats 1 1) r' .unsupported "x").chunks
    cs.map (·.content) = ["x"] ∧ cs'.map (·.content) = ["x"] ∧ ∀ c ∈ cs, ∀ c' ∈ cs', c.id ≠ c'.id := by
  intro r r' cs cs'
  obtain ⟨-, -, -, -, -, hacross⟩ := identities_tell_apart
  have hapart : r.AreApart r' := ⟨rfl, rfl, by decide, by decide, by decide⟩
  exact ⟨by decide +kernel, by decide +kernel,
    (hacross r r' hapart).1 _ _ _ _ _ _ (by decide +kernel)⟩

end CodeIndex
