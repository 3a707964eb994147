import CodeIndex.Proofs.Store.Rows
import CodeIndex.Proofs.Store.Table
/-!
# Writes that go through

What the writes of the database leave behind when nothing stands against them: the tables exist, a
resource has a row before its chunks and triples are written, and chunks and triples are those of
the resource. Resources are upserted the way they are put in memory (`Database.writeResource_eq`,
`Database.writeStatus_eq`), and chunks and triples replace those of the resource
(`Database.writeChunks_eq`, `Database.writeTriples_eq`).
-/

namespace CodeIndex.Store

open CodeIndex.Keyed

/-! ### Attempts -/

namespace Attempt

variable {σ ι : Type}

theorem all_cons_of_ok {write : Attempt σ} {s s' : σ} (h : write s = (s', none))
    (writes : List (Attempt σ)) : all (write :: writes) s = all writes s' := by
  show andThen write (all writes) s = _
  rw [andThen, h]

theorem atomically_of_ok {write : Attempt σ} {s s' : σ} (h : write s = (s', none)) :
    atomically write s = (s', none) := by
  rw [atomically, h]

/-- Writes that all go through leave behind what they do one after the other. -/
theorem all_map_of_ok {write : ι → Attempt σ} {f : σ → ι → σ} {P : σ → Prop} {is : List ι}
    (hwrite : ∀ s, ∀ i ∈ is, P s → write i s = (f s i, none) ∧ P (f s i)) {s : σ} (hs : P s) :
    all (is.map write) s = (is.foldl f s, none) := by
  induction is generalizing s with
  | nil => rfl
  | cons i is ih =>
    obtain ⟨hok, hnext⟩ := hwrite s i (List.mem_cons_self ..) hs
    rw [List.map_cons, all_cons_of_ok hok, List.foldl_cons]
    exact ih (fun s j hj => hwrite s j (List.mem_cons_of_mem _ hj)) hnext

end Attempt

/-! ### Chunks and triples -/

/-- How chunks are written. -/
def chunkEncoding : Encoding Chunk :=
  ⟨ChunkRow.encode, (·.id), (·.resourceId), fun _ => rfl, fun _ => rfl⟩

/-- How triples are written. -/
def tripleEncoding : Encoding Triple :=
  ⟨TripleRow.encode, (·.id), (·.resourceId), fun _ => rfl, fun _ => rfl⟩

namespace Database

variable {d : Database} {id : String}

/-- The database with one more chunk. -/
def insertedChunk (d : Database) (c : Chunk) : Database :=
  { d with chunks := insertOrReplace (ChunkRow.encode c) d.chunks }

/-- The database with one more triple. -/
def insertedTriple (d : Database) (t : Triple) : Database :=
  { d with triples := insertOrReplace (TripleRow.encode t) d.triples }

theorem foldl_insertedChunk (cs : List Chunk) :
    cs.foldl insertedChunk d =
      { d with
        chunks := cs.foldl (fun rows c => insertOrReplace (ChunkRow.encode c) rows) d.chunks } := by
  induction cs generalizing d with
  | nil => rfl
  | cons c cs ih => exact ih

theorem foldl_insertedTriple (ts : List Triple) :
    ts.foldl insertedTriple d =
      { d with
        triples :=
          ts.foldl (fun rows t => insertOrReplace (TripleRow.encode t) rows) d.triples } := by
  induction ts generalizing d with
  | nil => rfl
  | cons t ts ih => exact ih

section Replace

variable (hcreated : d.created = true) (hresource : d.hasResource (.text id) = true)
include hcreated hresource

/-- Chunks of a resource with a row replace those it has. -/
theorem writeChunks_eq {cs : List Chunk} (howned : ∀ c ∈ cs, c.resourceId = id) :
    writeChunks id cs d
      = ({ d with chunks := Table.replaced chunkEncoding id cs d.chunks }, none) := by
  have hstray : refuseStrayChunk id cs d = (d, none) := by
    have hnone : (cs.find? fun c => c.resourceId != id) = none := by
      refine List.find?_eq_none.mpr fun c hc => ?_
      simpa using howned c hc
    rw [refuseStrayChunk, hnone]
    rfl
  have hclear : onTable "chunks" (.change fun d => { d with chunks := withoutOwner id d.chunks }) d
      = ({ d with chunks := withoutOwner id d.chunks }, none) := by
    rw [onTable, if_pos hcreated]
    rfl
  have hinsert : ∀ d : Database, ∀ c ∈ cs, d.hasResource (.text id) = true →
      insertChunk c d = (insertedChunk d c, none) ∧
        (insertedChunk d c).hasResource (.text id) = true := by
    intro d c hc hd
    refine ⟨?_, hd⟩
    rw [← howned c hc] at hd
    exact if_pos hd
  have hcleared : ({ d with chunks := withoutOwner id d.chunks } : Database).hasResource (.text id)
      = true := hresource
  rw [writeChunks, List.cons_append, List.singleton_append, Attempt.all_cons_of_ok hstray,
    Attempt.all_cons_of_ok hclear, Attempt.all_map_of_ok hinsert hcleared, foldl_insertedChunk]
  rfl

/-- Triples of a resource with a row replace those it has. -/
theorem writeTriples_eq {ts : List Triple} (howned : ∀ t ∈ ts, t.resourceId = id) :
    writeTriples id ts d
      = ({ d with triples := Table.replaced tripleEncoding id ts d.triples }, none) := by
  have hstray : refuseStrayTriple id ts d = (d, none) := by
    have hnone : (ts.find? fun t => t.resourceId != id) = none := by
      refine List.find?_eq_none.mpr fun t ht => ?_
      simpa using howned t ht
    rw [refuseStrayTriple, hnone]
    rfl
  have hclear : onTable "triples"
      (.change fun d => { d with triples := withoutOwner id d.triples }) d
      = ({ d with triples := withoutOwner id d.triples }, none) := by
    rw [onTable, if_pos hcreated]
    rfl
  have hinsert : ∀ d : Database, ∀ t ∈ ts, d.hasResource (.text id) = true →
      insertTriple t d = (insertedTriple d t, none) ∧
        (insertedTriple d t).hasResource (.text id) = true := by
    intro d t ht hd
    refine ⟨?_, hd⟩
    rw [← howned t ht] at hd
    exact if_pos hd
  have hcleared : ({ d with triples := withoutOwner id d.triples } : Database).hasResource
      (.text id) = true := hresource
  rw [writeTriples, List.cons_append, List.singleton_append, Attempt.all_cons_of_ok hstray,
    Attempt.all_cons_of_ok hclear, Attempt.all_map_of_ok hinsert hcleared, foldl_insertedTriple]
  rfl

end Replace

/-! ### Resources -/

/-- An upsert over a resource at the same place writes the whole row. -/
theorem updatedRow_encode {stored r : Resource} (hid : stored.id = r.id)
    (hroot : stored.repositoryRoot = r.repositoryRoot)
    (hpath : stored.relativePath = r.relativePath) :
    updatedRow (ResourceRow.encode stored) (ResourceRow.encode r) = ResourceRow.encode r := by
  show [Cell.text stored.id, .text stored.relativePath, .text stored.repositoryRoot] ++ _ = _
  rw [hid, hroot, hpath]
  rfl

/-- Setting the status in a row sets the status of the resource. -/
theorem set_status_encode (stored : Resource) (status : ResourceStatus) :
    (ResourceRow.encode stored).set ResourceRow.columns "ingestion_status" (.text status.name)
      = ResourceRow.encode { stored with status := status } := by
  rfl

section Upsert

variable {rs : List Resource} {r : Resource}
  (hrows : d.resources = rs.map ResourceRow.encode)
include hrows

theorem hasResource_iff (id : String) :
    d.hasResource (.text id) = true ↔ id ∈ rs.map (·.id) := by
  have hid : ∀ s : Resource, rowId (ResourceRow.encode s) = .text s.id := fun _ => rfl
  simp [hasResource, hrows, hid]

variable (hcreated : d.created = true) (hnodup : (rs.map (·.id)).Nodup)
include hcreated hnodup

/-- A resource is upserted the way it is put in memory, when it never moves. -/
theorem writeResource_eq
    (hplace : ∀ s ∈ rs, s.id = r.id →
      s.repositoryRoot = r.repositoryRoot ∧ s.relativePath = r.relativePath) :
    writeResource r d
      = ({ d with resources := (put (·.id) r rs).map ResourceRow.encode }, none) := by
  rw [writeResource, onTable, if_pos hcreated]
  show (if d.hasResource (.text r.id) then _ else _, none) = _
  by_cases hmem : r.id ∈ rs.map (·.id)
  · rw [if_pos ((hasResource_iff hrows r.id).mpr hmem), put_eq_alter,
      alter_of_mem _ _ _ hnodup hmem, hrows, List.map_map, List.map_map]
    congr 2
    refine List.map_congr_left fun s hs => ?_
    show (if Cell.text s.id == .text r.id then _ else _)
      = ResourceRow.encode (if s.id = r.id then r else s)
    by_cases hid : s.id = r.id
    · obtain ⟨hroot, hpath⟩ := hplace s hs hid
      rw [if_pos hid, if_pos (by simp [hid])]
      exact updatedRow_encode hid hroot hpath
    · rw [if_neg hid, if_neg (by simpa using hid)]
  · rw [if_neg (mt (hasResource_iff hrows r.id).mp hmem), put_of_not_mem _ hmem, hrows,
      List.map_append, List.map_singleton]

/-- A status is set the way it is put in memory. -/
theorem writeStatus_eq :
    writeStatus r d = ({ d with resources := (alter (·.id) r.id
      (fun stored => { stored with status := r.status }) r rs).map ResourceRow.encode }, none) := by
  rw [writeStatus, onTable, if_pos hcreated]
  by_cases hmem : r.id ∈ rs.map (·.id)
  · rw [if_pos ((hasResource_iff hrows r.id).mpr hmem), alter_of_mem _ _ _ hnodup hmem, hrows,
      List.map_map, List.map_map]
    congr 2
    refine List.map_congr_left fun s _ => ?_
    show (if Cell.text s.id == .text r.id then _ else _)
      = ResourceRow.encode (if s.id = r.id then { s with status := r.status } else s)
    by_cases hid : s.id = r.id
    · rw [if_pos hid, if_pos (by simp [hid])]
      exact set_status_encode s r.status
    · rw [if_neg hid, if_neg (by simpa using hid)]
  · -- With a new id the resource is upserted, and there is nothing that it could move.
    have hnone : ∀ s ∈ rs, s.id = r.id →
        s.repositoryRoot = r.repositoryRoot ∧ s.relativePath = r.relativePath := by
      intro s hs hid
      exact absurd (hid ▸ List.mem_map_of_mem hs) hmem
    rw [if_neg (mt (hasResource_iff hrows r.id).mp hmem),
      writeResource_eq hrows hcreated hnodup hnone, put_of_not_mem _ hmem,
      alter_of_not_mem _ _ _ hmem]

/-- A file with its chunks and triples is saved as a whole. -/
theorem saveFile_eq {cs : List Chunk} {ts : List Triple}
    (hplace : ∀ s ∈ rs, s.id = r.id →
      s.repositoryRoot = r.repositoryRoot ∧ s.relativePath = r.relativePath)
    (hchunks : ∀ c ∈ cs, c.resourceId = r.id) (htriples : ∀ t ∈ ts, t.resourceId = r.id) :
    saveFile r cs ts d
      = ({ d with
            resources := (put (·.id) r rs).map ResourceRow.encode
            chunks := Table.replaced chunkEncoding r.id cs d.chunks
            triples := Table.replaced tripleEncoding r.id ts d.triples }, none) := by
  have hresource := writeResource_eq hrows hcreated hnodup hplace
  generalize hd : ({ d with resources := (put (·.id) r rs).map ResourceRow.encode } : Database) = d₁
    at hresource
  have hrow : d₁.hasResource (.text r.id) = true := by
    rw [← hd]
    refine (hasResource_iff rfl r.id).mpr (List.mem_map.mpr ⟨r, ?_, rfl⟩)
    exact (put_perm _ r hnodup).mem_iff.mpr (by simp)
  have hcreated₁ : d₁.created = true := by
    rw [← hd]
    exact hcreated
  have hwritten := writeChunks_eq hcreated₁ hrow hchunks
  have htripled := writeTriples_eq
    (d := { d₁ with chunks := Table.replaced chunkEncoding r.id cs d₁.chunks }) hcreated₁ hrow
    htriples
  refine Attempt.atomically_of_ok ?_
  rw [Attempt.all_cons_of_ok hresource, Attempt.all_cons_of_ok hwritten,
    Attempt.all_cons_of_ok htripled, ← hd]
  rfl

end Upsert

end Database

end CodeIndex.Store
