import CodeIndex.Proofs.Identity
import CodeIndex.Proofs.Store.Rows
import CodeIndex.Store.Database
/-!
# Integrity of the database

Whatever is written to a database, in any order and with any arguments, its tables keep their ids
apart, its chunks and triples name resources that have a row, and the id of a triple is the one that
the triple computes. A write that fails leaves every table as it was, even if some of its rows had
been written already (`integrity_kept`).

Each statement keeps the integrity of the database whether it goes through or not
(`Attempt.Preserves`), so all that is made of statements keeps it too. Nothing is left of a failed
transaction, and a write that is no transaction touches rows in one statement only
(`Attempt.IsClean`).
-/

namespace CodeIndex.Store

open CodeIndex.Number

/-! ### Attempts -/

namespace Attempt

variable {σ : Type} {P : σ → Prop}

/-- The property holds after the write if it held before, whether the write goes through or not. -/
def Preserves (P : σ → Prop) (write : Attempt σ) : Prop :=
  ∀ s, P s → P (write s).1

theorem preserves_all {writes : List (Attempt σ)} (h : ∀ write ∈ writes, Preserves P write) :
    Preserves P (all writes) := by
  induction writes with
  | nil => exact fun s hs => hs
  | cons write writes ih =>
    intro s hs
    have hfirst := h write (List.mem_cons_self ..) s hs
    have hrest := ih fun w hw => h w (List.mem_cons_of_mem _ hw)
    show P (andThen write (all writes) s).1
    unfold andThen
    split
    · rename_i s' hwrite
      rw [hwrite] at hfirst
      exact hrest s' hfirst
    · rename_i s' fault hwrite
      rw [hwrite] at hfirst
      exact hfirst

theorem preserves_atomically {write : Attempt σ} (h : Preserves P write) :
    Preserves P (atomically write) := by
  intro s hs
  have hwrite := h s hs
  unfold atomically
  split
  · rename_i s' heq
    rw [heq] at hwrite
    exact hwrite
  · exact hs

/-- The write changes nothing when it fails. -/
def IsClean (write : Attempt σ) : Prop :=
  ∀ s, (write s).2 ≠ none → (write s).1 = s

end Attempt

/-! ### Ids of triples -/

/-- A triple as its row keeps it: only the low 64 bits of the line. -/
def storedTriple (t : Triple) : Triple := { t with line := t.line % count64 }

theorem id_storedTriple (t : Triple) : (storedTriple t).id = t.id := by
  have hline : Identity.littleEndian (t.line % count64) 8 = Identity.littleEndian t.line 8 :=
    Identity.littleEndian_mod t.line 8
  rw [Triple.id, Triple.id, Triple.key, Triple.key, Identity.relationKey, Identity.relationKey,
    storedTriple, hline]

theorem encode_storedTriple (t : Triple) : TripleRow.encode (storedTriple t) = TripleRow.encode t := by
  have hline : Cell.ofNat (t.line % count64) = Cell.ofNat t.line := by
    rw [Cell.ofNat, Cell.ofNat, toSigned64, toSigned64, Int.natCast_emod, Int.emod_bmod]
  rw [TripleRow.encode, TripleRow.encode, id_storedTriple, storedTriple, hline]

/-- The row holds a triple, under the id that the triple computes. -/
def IsTripleRow (row : Row) : Prop :=
  ∃ t, TripleRow.decode row = .ok t ∧ Database.rowId row = .text t.id

theorem isTripleRow_encode (t : Triple) : IsTripleRow (TripleRow.encode t) := by
  have hline : (storedTriple t).line < count64 := Nat.mod_lt _ (by decide)
  refine ⟨storedTriple t, ?_, ?_⟩
  · rw [← encode_storedTriple]
    exact TripleRow.decode_encode hline
  · rw [id_storedTriple]
    rfl

namespace Database

/-! ### One table -/

/-- Rows with ids of their own, each of which names a resource that has a row. -/
structure IsOwned (resources rows : List Row) : Prop where
  ids_nodup : (rows.map rowId).Nodup
  owner_mem : ∀ row ∈ rows, rowOwner row ∈ resources.map rowId

namespace IsOwned

variable {resources rows : List Row}

theorem nil : IsOwned resources [] := ⟨List.nodup_nil, by simp⟩

/-- More resources do no harm. -/
theorem mono (h : IsOwned resources rows) {resources' : List Row}
    (hsub : resources.map rowId ⊆ resources'.map rowId) : IsOwned resources' rows :=
  ⟨h.ids_nodup, fun row hrow => hsub (h.owner_mem row hrow)⟩

theorem filter (h : IsOwned resources rows) (keep : Row → Bool) :
    IsOwned resources (rows.filter keep) where
  ids_nodup := h.ids_nodup.sublist (List.filter_sublist.map rowId)
  owner_mem := fun row hrow => h.owner_mem row (List.mem_filter.mp hrow).1

/-- A row takes the place of the one with its id, whichever resource that belonged to. -/
theorem insertOrReplace (h : IsOwned resources rows) {row : Row}
    (howner : rowOwner row ∈ resources.map rowId) :
    IsOwned resources (Database.insertOrReplace row rows) := by
  have hkept := h.filter fun r => rowId r != rowId row
  constructor
  · rw [Database.insertOrReplace, List.map_append, List.nodup_append]
    refine ⟨hkept.ids_nodup, List.nodup_cons.mpr ⟨List.not_mem_nil, List.nodup_nil⟩, ?_⟩
    intro id hid id' hid' heq
    obtain ⟨r, hr, rfl⟩ := List.mem_map.mp hid
    have hne := (List.mem_filter.mp hr).2
    rw [List.map_singleton, List.mem_singleton] at hid'
    simp [heq, hid'] at hne
  · intro r hr
    rcases List.mem_append.mp hr with hr | hr
    · exact hkept.owner_mem r hr
    · rw [List.mem_singleton.mp hr]
      exact howner

end IsOwned

/-! ### All tables -/

/-- The tables fit together. -/
structure HasIntegrity (d : Database) : Prop where
  created : d.created = true
  ids_nodup : (d.resources.map rowId).Nodup
  chunks : IsOwned d.resources d.chunks
  triples : IsOwned d.resources d.triples
  /-- Every row of triples has the id that its triple computes. -/
  triple_ids : ∀ row ∈ d.triples, IsTripleRow row

theorem hasIntegrity_empty : HasIntegrity empty where
  created := rfl
  ids_nodup := List.nodup_nil
  chunks := IsOwned.nil
  triples := IsOwned.nil
  triple_ids := by simp [empty, createTables, fresh]

theorem hasResource_iff_mem (d : Database) (id : Cell) :
    d.hasResource id = true ↔ id ∈ d.resources.map rowId := by
  simp [hasResource]

namespace HasIntegrity

variable {d : Database} (h : HasIntegrity d)
include h

/-! ### Changes to single tables -/

/-- Rows of resources may change as long as their ids stay. -/
theorem withResources {rows : List Row} (hids : rows.map rowId = d.resources.map rowId) :
    HasIntegrity { d with resources := rows } where
  created := h.created
  ids_nodup := hids ▸ h.ids_nodup
  chunks := h.chunks.mono (fun _ hid => hids ▸ hid)
  triples := h.triples.mono (fun _ hid => hids ▸ hid)
  triple_ids := h.triple_ids

/-- A resource with a new id gets a row. -/
theorem addResource {row : Row} (hnew : rowId row ∉ d.resources.map rowId) :
    HasIntegrity { d with resources := d.resources ++ [row] } := by
  have hsub : d.resources.map rowId ⊆ (d.resources ++ [row]).map rowId := by
    rw [List.map_append]
    exact List.subset_append_left _ _
  refine ⟨h.created, ?_, h.chunks.mono hsub, h.triples.mono hsub, h.triple_ids⟩
  show ((d.resources ++ [row]).map rowId).Nodup
  rw [List.map_append, List.nodup_append]
  refine ⟨h.ids_nodup, List.nodup_cons.mpr ⟨List.not_mem_nil, List.nodup_nil⟩, ?_⟩
  intro id hid id' hid' heq
  rw [List.map_singleton, List.mem_singleton] at hid'
  exact hnew (hid' ▸ heq ▸ hid)

theorem withChunks {rows : List Row} (hrows : IsOwned d.resources rows) :
    HasIntegrity { d with chunks := rows } :=
  ⟨h.created, h.ids_nodup, hrows, h.triples, h.triple_ids⟩

theorem withTriples {rows : List Row} (hrows : IsOwned d.resources rows)
    (hids : ∀ row ∈ rows, IsTripleRow row) : HasIntegrity { d with triples := rows } :=
  ⟨h.created, h.ids_nodup, h.chunks, hrows, hids⟩

end HasIntegrity

/-! ### Statements -/

/-- An upsert keeps the id of the row it updates. -/
theorem rowId_updatedRow {stored row : Row} {id : String} (h : rowId stored = .text id) :
    rowId (updatedRow stored row) = rowId stored := by
  cases stored with
  | nil => cases h
  | cons cell cells => rfl

/-- A status is set in another column than the id. -/
theorem rowId_set_status (row : Row) (value : Cell) :
    rowId (row.set ResourceRow.columns "ingestion_status" value) = rowId row := by
  cases row with
  | nil => rfl
  | cons cell cells => rfl

theorem preserves_onTable {P : Database → Prop} {write : Attempt Database} (table : String)
    (h : write.Preserves P) : (onTable table write).Preserves P := by
  intro d hd
  unfold onTable
  split
  · exact h d hd
  · exact hd

theorem preserves_writeResource (r : Resource) : (writeResource r).Preserves HasIntegrity := by
  refine preserves_onTable "resources" fun d h => ?_
  show HasIntegrity (if d.hasResource (rowId (ResourceRow.encode r)) then _ else _)
  split
  · refine h.withResources ?_
    rw [List.map_map]
    refine List.map_congr_left fun stored _ => ?_
    rw [Function.comp_apply]
    split
    · rename_i hid
      exact rowId_updatedRow (beq_iff_eq.mp hid)
    · rfl
  · rename_i hnew
    exact h.addResource fun hmem => hnew ((hasResource_iff_mem d _).mpr hmem)

theorem preserves_writeStatus (r : Resource) : (writeStatus r).Preserves HasIntegrity := by
  refine preserves_onTable "resources" fun d h => ?_
  split
  · refine h.withResources ?_
    rw [List.map_map]
    refine List.map_congr_left fun stored _ => ?_
    rw [Function.comp_apply]
    split
    · exact rowId_set_status stored _
    · rfl
  · exact preserves_writeResource r d h

theorem preserves_insertChunk (c : Chunk) : (insertChunk c).Preserves HasIntegrity := by
  intro d h
  simp only [insertChunk]
  split
  · rename_i howner
    exact h.withChunks (h.chunks.insertOrReplace ((hasResource_iff_mem d _).mp howner))
  · exact h

theorem preserves_insertTriple (t : Triple) : (insertTriple t).Preserves HasIntegrity := by
  intro d h
  simp only [insertTriple]
  split
  · rename_i howner
    refine h.withTriples (h.triples.insertOrReplace ((hasResource_iff_mem d _).mp howner)) ?_
    intro row hrow
    rcases List.mem_append.mp hrow with hrow | hrow
    · exact h.triple_ids row (List.mem_filter.mp hrow).1
    · rw [List.mem_singleton.mp hrow]
      exact isTripleRow_encode t
  · exact h

/-- Looking for strays changes nothing. -/
theorem preserves_refuseStrayChunk (id : String) (cs : List Chunk) :
    (refuseStrayChunk id cs).Preserves HasIntegrity := by
  intro d h
  unfold refuseStrayChunk
  cases cs.find? fun c => c.resourceId != id <;> exact h

theorem preserves_refuseStrayTriple (id : String) (ts : List Triple) :
    (refuseStrayTriple id ts).Preserves HasIntegrity := by
  intro d h
  unfold refuseStrayTriple
  cases ts.find? fun t => t.resourceId != id <;> exact h

theorem preserves_writeChunks (id : String) (cs : List Chunk) :
    (writeChunks id cs).Preserves HasIntegrity := by
  refine Attempt.preserves_all fun write hwrite => ?_
  rcases List.mem_append.mp hwrite with hwrite | hwrite
  · rw [List.mem_cons, List.mem_singleton] at hwrite
    rcases hwrite with rfl | rfl
    · exact preserves_refuseStrayChunk id cs
    · exact preserves_onTable "chunks" fun d h => h.withChunks (h.chunks.filter _)
  · obtain ⟨c, -, rfl⟩ := List.mem_map.mp hwrite
    exact preserves_insertChunk c

theorem preserves_writeTriples (id : String) (ts : List Triple) :
    (writeTriples id ts).Preserves HasIntegrity := by
  refine Attempt.preserves_all fun write hwrite => ?_
  rcases List.mem_append.mp hwrite with hwrite | hwrite
  · rw [List.mem_cons, List.mem_singleton] at hwrite
    rcases hwrite with rfl | rfl
    · exact preserves_refuseStrayTriple id ts
    · refine preserves_onTable "triples" fun d h => h.withTriples (h.triples.filter _) ?_
      exact fun row hrow => h.triple_ids row (List.mem_filter.mp hrow).1
  · obtain ⟨t, -, rfl⟩ := List.mem_map.mp hwrite
    exact preserves_insertTriple t

/-! ### Writes -/

/-- What can be asked of the database, with any arguments. -/
inductive Write where
  | upsertResource (r : Resource)
  | updateStatus (r : Resource)
  | replaceChunks (id : String) (cs : List Chunk)
  | replaceTriples (id : String) (ts : List Triple)
  | saveFile (r : Resource) (cs : List Chunk) (ts : List Triple)

/-- What is done for a write. -/
def Write.attempt : Write → Attempt Database
  | upsertResource r => writeResource r
  | updateStatus r => writeStatus r
  | replaceChunks id cs => Database.replaceChunks id cs
  | replaceTriples id ts => Database.replaceTriples id ts
  | saveFile r cs ts => Database.saveFile r cs ts

/-- The database after some writes, of which any may have failed. -/
def after (writes : List Write) (d : Database) : Database :=
  writes.foldl (fun d write => (write.attempt d).1) d

theorem preserves_attempt (write : Write) : write.attempt.Preserves HasIntegrity := by
  cases write with
  | upsertResource r => exact preserves_writeResource r
  | updateStatus r => exact preserves_writeStatus r
  | replaceChunks id cs => exact Attempt.preserves_atomically (preserves_writeChunks id cs)
  | replaceTriples id ts => exact Attempt.preserves_atomically (preserves_writeTriples id ts)
  | saveFile r cs ts =>
    refine Attempt.preserves_atomically (Attempt.preserves_all fun write hwrite => ?_)
    simp only [List.mem_cons, List.not_mem_nil, or_false] at hwrite
    rcases hwrite with rfl | rfl | rfl
    · exact preserves_writeResource r
    · exact preserves_writeChunks r.id cs
    · exact preserves_writeTriples r.id ts

theorem hasIntegrity_after (writes : List Write) {d : Database} (h : HasIntegrity d) :
    HasIntegrity (after writes d) := by
  induction writes generalizing d with
  | nil => exact h
  | cons write writes ih => exact ih (preserves_attempt write d h)

/-! ### Failures -/

theorem isClean_onTable {write : Attempt Database} (table : String) (h : write.IsClean) :
    (onTable table write).IsClean := by
  intro d hfault
  by_cases hcreated : d.created = true
  · rw [onTable, if_pos hcreated] at hfault ⊢
    exact h d hfault
  · rw [onTable, if_neg hcreated]

theorem isClean_writeResource (r : Resource) : (writeResource r).IsClean :=
  isClean_onTable "resources" fun _ hfault => absurd rfl hfault

/-- Of the two statements that write a status, only one touches a row. -/
theorem isClean_writeStatus (r : Resource) : (writeStatus r).IsClean := by
  refine isClean_onTable "resources" fun d hfault => ?_
  by_cases hrow : d.hasResource (.text r.id) = true
  · rw [if_pos hrow] at hfault
    exact absurd rfl hfault
  · rw [if_neg hrow] at hfault ⊢
    exact isClean_writeResource r d hfault

/-- Every write is one statement that touches rows, or a transaction. -/
theorem isClean_attempt (write : Write) : write.attempt.IsClean := by
  cases write with
  | upsertResource r => exact isClean_writeResource r
  | updateStatus r => exact isClean_writeStatus r
  | replaceChunks id cs => exact fun _ => Attempt.atomically_of_fault
  | replaceTriples id ts => exact fun _ => Attempt.atomically_of_fault
  | saveFile r cs ts => exact fun _ => Attempt.atomically_of_fault

end Database

/-- **Integrity is kept**: after any writes to an initialized database its tables fit together, and
a further write that fails leaves them as they are. -/
theorem integrity_kept (writes : List Database.Write) :
    (Database.after writes Database.empty).HasIntegrity ∧
    ∀ write : Database.Write,
      (write.attempt (Database.after writes Database.empty)).2 ≠ none →
      (write.attempt (Database.after writes Database.empty)).1
        = Database.after writes Database.empty :=
  ⟨Database.hasIntegrity_after writes Database.hasIntegrity_empty,
    fun write => Database.isClean_attempt write _⟩

/-- A file and its chunk are there; another file fails at a stray triple, when its row, and the
chunk that it takes over, are written already. -/
theorem integrity_kept_stray_triple :
    let file (id : String) : Resource := ⟨id, id ++ ".py", "/r", none, none, .practice, "python",
      .completed, "h", 3, [], .epoch⟩
    let chunk (owner : String) : Chunk := ⟨"c", owner, 0, .text, none, none, 1, 1, "python", 1,
      false, false, "h", "f()"⟩
    let d := Database.after [.upsertResource (file "a"), .replaceChunks "a" [chunk "a"]]
      Database.empty
    let write : Database.Write := .saveFile (file "b") [chunk "b"]
      [⟨"a", "f", .calls, "g", "a.py", "g", 1, .ofNat 1⟩]
    (write.attempt d).2 = some (.persist (.strayTriple "a" "b")) ∧ (write.attempt d).1 = d ∧
      d.chunks.length = 1 := by
  intro file chunk d write
  have hfault : (write.attempt d).2 = some (.persist (.strayTriple "a" "b")) := by rfl
  refine ⟨hfault, (integrity_kept _).2 write ?_, by rfl⟩
  rw [hfault]
  exact Option.some_ne_none _

end CodeIndex.Store
