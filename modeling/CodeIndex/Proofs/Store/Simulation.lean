import CodeIndex.Proofs.Store.Atomic
import CodeIndex.Proofs.Store.Writes
/-!
# Two stores side by side

A run of calls on the store in memory and on the database. What the pipeline guarantees of its calls
is `IsPipelineRun`; the relation between the two stores is `Simulates`: the rows of resources are
those in memory in their order, and the tables of chunks and triples hold the groups in memory. A
call goes through in both and keeps the relation (`Simulates.step`), so a run does
(`Simulates.run`).
-/

namespace CodeIndex.Store

open CodeIndex.Keyed CodeIndex.Number

/-! ### Runs -/

/-- A call that the pipeline makes. -/
inductive Call where
  | saveFile (resource : Resource) (chunks : List Chunk) (triples : List Triple)
  | markFailed (resource : Resource)

namespace Call

def resource : Call → Resource
  | saveFile r _ _ => r
  | markFailed r => r

def chunks : Call → List Chunk
  | saveFile _ cs _ => cs
  | markFailed _ => []

def triples : Call → List Triple
  | saveFile _ _ ts => ts
  | markFailed _ => []

/-- The call as a write to a store. -/
def write {σ : Type} (api : Api σ) : Call → Attempt σ
  | saveFile r cs ts => api.saveFile r cs ts
  | markFailed r => api.markFailed r

end Call

/-- Calls one after the other, up to the first that fails. -/
def run {σ : Type} (api : Api σ) (calls : List Call) : Attempt σ :=
  .all (calls.map fun call => call.write api)

/-- What the pipeline guarantees of its calls. Resources with one id are at one place; the chunks
and triples of a file are its own, each with an id that nothing else has, and in the order of the
file; numbers and instants fit the columns. -/
structure IsPipelineRun (calls : List Call) : Prop where
  same_place : ∀ call ∈ calls, ∀ call' ∈ calls, call.resource.id = call'.resource.id →
    call.resource.repositoryRoot = call'.resource.repositoryRoot ∧
    call.resource.relativePath = call'.resource.relativePath
  resource_fits : ∀ call ∈ calls, ResourceRow.Fits call.resource
  chunk_owner : ∀ call ∈ calls, ∀ c ∈ call.chunks, c.resourceId = call.resource.id
  chunk_ids : ∀ call ∈ calls, (call.chunks.map (·.id)).Nodup
  chunk_ids_apart : ∀ call ∈ calls, ∀ call' ∈ calls, ∀ c ∈ call.chunks, ∀ c' ∈ call'.chunks,
    c.id = c'.id → call.resource.id = call'.resource.id
  chunk_seqs : ∀ call ∈ calls, call.chunks.map (·.seq) = List.range call.chunks.length
  chunk_count : ∀ call ∈ calls, (call.chunks.length : Int) ≤ signedBound64
  chunk_fits : ∀ call ∈ calls, ∀ c ∈ call.chunks, ChunkRow.Fits c
  triple_owner : ∀ call ∈ calls, ∀ t ∈ call.triples, t.resourceId = call.resource.id
  triple_ids : ∀ call ∈ calls, (call.triples.map (·.id)).Nodup
  triple_ids_apart : ∀ call ∈ calls, ∀ call' ∈ calls, ∀ t ∈ call.triples, ∀ t' ∈ call'.triples,
    t.id = t'.id → call.resource.id = call'.resource.id
  triple_lines : ∀ call ∈ calls, call.triples.Pairwise fun a b => a.line ≤ b.line
  triple_fits : ∀ call ∈ calls, ∀ t ∈ call.triples, (t.line : Int) < signedBound64

/-- The groups of chunks that calls write. -/
def chunksWritten (calls : List Call) : List (String × List Chunk) :=
  calls.map fun call => (call.resource.id, call.chunks)

/-- The groups of triples that calls write. -/
def triplesWritten (calls : List Call) : List (String × List Triple) :=
  calls.map fun call => (call.resource.id, call.triples)

namespace IsPipelineRun

variable {calls : List Call} (hrun : IsPipelineRun calls)
include hrun

theorem isWritten_chunks : Table.IsWritten chunkEncoding (chunksWritten calls) :=
  Table.isWritten_map chunkEncoding hrun.chunk_owner hrun.chunk_ids hrun.chunk_ids_apart

theorem isWritten_triples : Table.IsWritten tripleEncoding (triplesWritten calls) :=
  Table.isWritten_map tripleEncoding hrun.triple_owner hrun.triple_ids hrun.triple_ids_apart

end IsPipelineRun

/-! ### The relation -/

/-- The database holds what is in memory, all of it written by some of the calls. -/
structure Simulates (calls : List Call) (m : Memory) (d : Database) : Prop where
  created : d.created = true
  resources : d.resources = m.resources.map ResourceRow.encode
  ids_nodup : (m.resources.map (·.id)).Nodup
  resource_of_mem : ∀ s ∈ m.resources, ∃ call ∈ calls, ∃ status,
    s = { call.resource with status := status }
  chunks : Table.Holds chunkEncoding (chunksWritten calls) m.chunks d.chunks
  triples : Table.Holds tripleEncoding (triplesWritten calls) m.triples d.triples

namespace Simulates

variable {calls : List Call} {m : Memory} {d : Database}

theorem empty (calls : List Call) : Simulates calls Memory.empty Database.empty where
  created := rfl
  resources := rfl
  ids_nodup := List.nodup_nil
  resource_of_mem := by simp [Memory.empty]
  chunks := Table.Holds.empty _ _
  triples := Table.Holds.empty _ _

section Step

variable (hrun : IsPipelineRun calls) (h : Simulates calls m d)
include hrun h

theorem same_place {r : Resource} {cs : List Chunk} {ts : List Triple}
    (hcall : .saveFile r cs ts ∈ calls) :
    ∀ s ∈ m.resources, s.id = r.id →
      s.repositoryRoot = r.repositoryRoot ∧ s.relativePath = r.relativePath := by
  intro s hs hid
  obtain ⟨call, hmem, status, rfl⟩ := h.resource_of_mem s hs
  exact hrun.same_place call hmem _ hcall hid

theorem step_saveFile {r : Resource} {cs : List Chunk} {ts : List Triple}
    (hcall : .saveFile r cs ts ∈ calls) :
    ∃ m' d', Memory.api.saveFile r cs ts m = (m', none) ∧
      Database.api.saveFile r cs ts d = (d', none) ∧ Simulates calls m' d' := by
  have hsave := Database.saveFile_eq h.resources h.created h.ids_nodup (h.same_place hrun hcall)
    (hrun.chunk_owner _ hcall) (hrun.triple_owner _ hcall)
  -- The ids of a call are distinct, so the store in memory leaves nothing out.
  have hchunks : Memory.distinctChunks cs = cs :=
    Memory.distinctChunks_of_nodup (hrun.chunk_ids _ hcall)
  have htriples : Memory.distinctTriples ts = ts :=
    Memory.distinctTriples_of_nodup (hrun.triple_ids _ hcall)
  refine ⟨_, _, rfl, hsave, h.created, rfl, nodup_put _ _ h.ids_nodup, ?_, ?_, ?_⟩
  · intro s hs
    rcases List.mem_append.mp ((put_perm _ r h.ids_nodup).mem_iff.mp hs) with hs | hs
    · exact h.resource_of_mem s (List.mem_filter.mp hs).1
    · exact ⟨_, hcall, r.status, List.mem_singleton.mp hs⟩
  · show Table.Holds _ _ (put _ (r.id, Memory.distinctChunks cs) m.chunks) _
    rw [hchunks]
    exact h.chunks.replace hrun.isWritten_chunks (List.mem_map.mpr ⟨_, hcall, rfl⟩)
  · show Table.Holds _ _ (put _ (r.id, Memory.distinctTriples ts) m.triples) _
    rw [htriples]
    exact h.triples.replace hrun.isWritten_triples (List.mem_map.mpr ⟨_, hcall, rfl⟩)

omit hrun in
theorem step_markFailed {r : Resource} (hcall : .markFailed r ∈ calls) :
    ∃ m' d', Memory.api.markFailed r m = (m', none) ∧
      Database.api.markFailed r d = (d', none) ∧ Simulates calls m' d' := by
  have hstatus := Database.writeStatus_eq (r := r) h.resources h.created h.ids_nodup
  refine ⟨_, _, rfl, hstatus, h.created, rfl, nodup_alter _ (fun _ _ => rfl) rfl h.ids_nodup, ?_,
    h.chunks, h.triples⟩
  intro s hs
  -- A status is set in a resource that an earlier call wrote, unless there is none.
  rcases mem_alter _ hs with rfl | hs | ⟨stored, hstored, rfl⟩
  · exact ⟨_, hcall, s.status, rfl⟩
  · exact h.resource_of_mem s hs
  · obtain ⟨call, hmem, status, rfl⟩ := h.resource_of_mem stored hstored
    exact ⟨call, hmem, r.status, rfl⟩

/-- Every call of the pipeline goes through in both stores and keeps the relation. -/
theorem step {call : Call} (hcall : call ∈ calls) :
    ∃ m' d', call.write Memory.api m = (m', none) ∧ call.write Database.api d = (d', none) ∧
      Simulates calls m' d' := by
  cases call with
  | saveFile r cs ts => exact h.step_saveFile hrun hcall
  | markFailed r => exact h.step_markFailed hcall

end Step

/-- Some of the calls of the pipeline, one after the other, go through and keep the relation. -/
theorem run (hrun : IsPipelineRun calls) (h : Simulates calls m d) {rest : List Call}
    (hrest : ∀ call ∈ rest, call ∈ calls) :
    ∃ m' d', Store.run Memory.api rest m = (m', none) ∧
      Store.run Database.api rest d = (d', none) ∧ Simulates calls m' d' := by
  induction rest generalizing m d with
  | nil => exact ⟨m, d, rfl, rfl, h⟩
  | cons call rest ih =>
    obtain ⟨m₁, d₁, hm, hd, h₁⟩ := h.step hrun (hrest call (List.mem_cons_self ..))
    obtain ⟨m₂, d₂, hm', hd', h₂⟩ := ih h₁ fun c hc => hrest c (List.mem_cons_of_mem _ hc)
    refine ⟨m₂, d₂, ?_, ?_, h₂⟩
    · rw [Store.run, List.map_cons, Attempt.all_cons_of_ok hm]
      exact hm'
    · rw [Store.run, List.map_cons, Attempt.all_cons_of_ok hd]
      exact hd'

end Simulates

end CodeIndex.Store
