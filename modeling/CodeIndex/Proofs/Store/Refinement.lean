import CodeIndex.Proofs.Store.Simulation
/-!
# The database refines the store in memory

On what the pipeline writes, every call goes through in the database and in the store in memory, and
afterwards every reading of the one gives what the other gives (`database_refines_memory`): the
encodings read back, and the orders in which the database sorts are those in which the pipeline
writes.
-/

namespace CodeIndex.Store

open CodeIndex.Keyed CodeIndex.Number

/-! ### Reading rows -/

/-- Rows that each read back read back together. -/
theorem mapM_decode {α : Type} {encode : α → Row} {decode : Row → Except Fault α} {xs : List α}
    (h : ∀ x ∈ xs, decode (encode x) = .ok x) : (xs.map encode).mapM decode = .ok xs := by
  induction xs with
  | nil => rfl
  | cons x xs ih =>
    have hrest := ih fun y hy => h y (List.mem_cons_of_mem _ hy)
    rw [List.map_cons, List.mapM_cons, bind_of_ok (h x (List.mem_cons_self ..)),
      bind_of_ok hrest]
    rfl

/-- A number below the bound is ordered as itself. -/
theorem order_ofNat {n : Nat} (h : (n : Int) < signedBound64) : (Cell.ofNat n).order = n := by
  rw [Cell.ofNat, toSigned64_of_lt h]
  rfl

theorem cell_seq (c : Chunk) : (ChunkRow.encode c).cell ChunkRow.columns "seq" = .ofNat c.seq :=
  Row.cell_of_place 2 (by decide) rfl

theorem cell_line (t : Triple) :
    (TripleRow.encode t).cell TripleRow.columns "line_number" = .ofNat t.line :=
  Row.cell_of_place 7 (by decide) rfl

namespace Table

variable {α : Type} {groups : List (String × List α)}

/-- What is read for a resource is one of the groups, or nothing. -/
theorem groupOf_cases (groups : List (String × List α)) (id : String) :
    groupOf groups id = [] ∨ ∃ g ∈ groups, groupOf groups id = g.2 := by
  rw [groupOf, lookUp]
  cases hfind : groups.find? fun g => g.1 == id with
  | none => exact Or.inl rfl
  | some g => exact Or.inr ⟨g, List.mem_of_find?_eq_some hfind, rfl⟩

end Table

namespace Simulates

variable {calls : List Call} {m : Memory} {d : Database}
  (hrun : IsPipelineRun calls) (h : Simulates calls m d)

/-! ### Groups that calls wrote -/

section Groups

include h

theorem chunksFor_cases (id : String) :
    m.chunksFor id = [] ∨ ∃ call ∈ calls, m.chunksFor id = call.chunks := by
  rcases Table.groupOf_cases m.chunks id with hnil | ⟨g, hg, hgroup⟩
  · exact Or.inl hnil
  · obtain ⟨call, hcall, rfl⟩ := List.mem_map.mp (h.chunks.written_of_mem g hg)
    exact Or.inr ⟨call, hcall, hgroup⟩

theorem triplesFor_cases (id : String) :
    m.triplesFor id = [] ∨ ∃ call ∈ calls, m.triplesFor id = call.triples := by
  rcases Table.groupOf_cases m.triples id with hnil | ⟨g, hg, hgroup⟩
  · exact Or.inl hnil
  · obtain ⟨call, hcall, rfl⟩ := List.mem_map.mp (h.triples.written_of_mem g hg)
    exact Or.inr ⟨call, hcall, hgroup⟩

end Groups

/-! ### Readings -/

section Readings

include hrun h

theorem resource?_eq (id : String) : d.resource? id = .ok (m.resource? id) := by
  have hsame : ((fun row => Database.rowId row == .text id) ∘ ResourceRow.encode)
      = fun r => r.id == id := by
    funext r
    show (Cell.text r.id == Cell.text id) = (r.id == id)
    rw [Bool.eq_iff_iff, beq_iff_eq, beq_iff_eq, Cell.text.injEq]
  rw [Database.resource?, Database.readTable, if_pos h.created, h.resources, List.find?_map, hsame,
    Memory.resource?, lookUp]
  cases hfind : m.resources.find? fun r => r.id == id with
  | none => rfl
  | some r =>
    obtain ⟨call, hcall, status, rfl⟩ := h.resource_of_mem r (List.mem_of_find?_eq_some hfind)
    have hfits := hrun.resource_fits call hcall
    have hdecode := ResourceRow.decode_rawOf (r := { call.resource with status := status })
      ⟨hfits.sizeBytes, hfits.ingestedAt⟩
    refine (bind_of_ok (ResourceRow.readCells_encode _)).trans ?_
    exact bind_of_ok hdecode

/-- The chunks of a resource are numbered upwards, with numbers that the database can sort. -/
theorem chunksFor_ordered (id : String) :
    (m.chunksFor id).Pairwise (fun a b => a.seq < b.seq) ∧
    ∀ c ∈ m.chunksFor id, (c.seq : Int) < signedBound64 ∧ ChunkRow.Fits c := by
  rcases h.chunksFor_cases id with hnil | ⟨call, hcall, hchunks⟩
  · rw [hnil]
    simp
  · have hseqs := hrun.chunk_seqs call hcall
    have hcount := hrun.chunk_count call hcall
    rw [hchunks]
    refine ⟨?_, fun c hc => ⟨?_, hrun.chunk_fits call hcall c hc⟩⟩
    · rw [← List.pairwise_map (f := fun c : Chunk => c.seq) (R := (· < ·)), hseqs]
      exact List.pairwise_lt_range
    · have hmem : c.seq ∈ call.chunks.map (·.seq) := List.mem_map_of_mem hc
      rw [hseqs, List.mem_range] at hmem
      omega

theorem chunksFor_eq (id : String) : d.chunksFor id = .ok (m.chunksFor id) := by
  have hrows : (d.chunks.filter fun row => Database.rowOwner row == .text id)
      = (m.chunksFor id).map ChunkRow.encode := h.chunks.rows_of_owner id
  obtain ⟨hordered, hfits⟩ := h.chunksFor_ordered hrun id
  rw [Database.chunksFor, Database.readTable, if_pos h.created, hrows]
  simp only
  -- The rows are in the order of their numbers already, so sorting them changes nothing.
  rw [List.mergeSort_of_pairwise]
  · exact mapM_decode fun c hc => ChunkRow.decode_encode (hfits c hc).2
  · rw [List.pairwise_map]
    refine List.Pairwise.imp_of_mem (fun {a b} ha hb hlt => ?_) hordered
    rw [cell_seq, cell_seq, order_ofNat (hfits a ha).1, order_ofNat (hfits b hb).1]
    have hdecide : decide ((a.seq : Int) < b.seq) = true := decide_eq_true (by omega)
    rw [hdecide, Bool.true_or]

/-- The triples of a resource are in the order of lines, which the database can sort. -/
theorem triplesFor_ordered (id : String) :
    (m.triplesFor id).Pairwise (fun a b => a.line ≤ b.line) ∧
    ∀ t ∈ m.triplesFor id, (t.line : Int) < signedBound64 := by
  rcases h.triplesFor_cases id with hnil | ⟨call, hcall, htriples⟩
  · rw [hnil]
    simp
  · rw [htriples]
    exact ⟨hrun.triple_lines call hcall, hrun.triple_fits call hcall⟩

theorem triplesFor_eq (id : String) : d.triplesFor id = .ok (m.triplesFor id) := by
  have hrows : (d.triples.filter fun row => Database.rowOwner row == .text id)
      = (m.triplesFor id).map TripleRow.encode := h.triples.rows_of_owner id
  obtain ⟨hordered, hfits⟩ := h.triplesFor_ordered hrun id
  rw [Database.triplesFor, Database.readTable, if_pos h.created, hrows]
  simp only
  rw [List.mergeSort_of_pairwise]
  · refine mapM_decode fun t ht => TripleRow.decode_encode ?_
    have := hfits t ht
    rw [signedBound64] at this
    rw [count64]
    omega
  · rw [List.pairwise_map]
    refine List.Pairwise.imp_of_mem (fun {a b} ha hb hle => ?_) hordered
    rw [cell_line, cell_line, order_ofNat (hfits a ha), order_ofNat (hfits b hb)]
    exact decide_eq_true (by omega)

omit hrun in
theorem counts_eq : d.counts = .ok m.counts := by
  rw [Database.counts, Database.readTable, if_pos h.created, h.chunks.length_eq,
    h.triples.length_eq, h.resources, List.length_map]
  rfl

end Readings

end Simulates

/-! ### Refinement -/

/-- On what the pipeline writes both stores succeed on every call, and afterwards the database gives
what the store in memory gives. -/
theorem database_refines_memory {calls : List Call} (hrun : IsPipelineRun calls) :
    ∃ m d, run Memory.api calls Memory.empty = (m, none) ∧
      run Database.api calls Database.empty = (d, none) ∧ d.counts = .ok m.counts ∧
      ∀ id, d.resource? id = .ok (m.resource? id) ∧ d.chunksFor id = .ok (m.chunksFor id) ∧
        d.triplesFor id = .ok (m.triplesFor id) := by
  obtain ⟨m, d, hm, hd, h⟩ :=
    (Simulates.empty calls).run hrun fun call hcall => hcall
  exact ⟨m, d, hm, hd, h.counts_eq, fun id =>
    ⟨h.resource?_eq hrun id, h.chunksFor_eq hrun id, h.triplesFor_eq hrun id⟩⟩

/-- A file with two chunks and a triple, another file, and the first one failing later. -/
theorem database_refines_memory_two_files :
    let a : Resource := ⟨"a", "a.py", "/r", none, some "main", .practice, "python", .completed, "h",
      12, ["slow"], .epoch⟩
    let b : Resource := ⟨"b", "b.txt", "/r", none, none, .theory, "unknown", .completed, "k", 3, [],
      .epoch⟩
    let chunk (id owner : String) (seq : Nat) : Chunk := ⟨id, owner, seq, .text, none, none,
      seq + 1, seq + 1, "python", 2, false, false, "h", "f()"⟩
    let call : Triple := ⟨"a", "f", .calls, "g", "a.py", "g", 1, .ofNat 1⟩
    let calls : List Call :=
      [ .saveFile a [chunk "c0" "a" 0, chunk "c1" "a" 1] [call],
        .saveFile b [chunk "c2" "b" 0] [],
        .markFailed { a with status := .failed } ]
    IsPipelineRun calls ∧
    ∃ m d, run Memory.api calls Memory.empty = (m, none) ∧
      run Database.api calls Database.empty = (d, none) ∧ d.counts = .ok m.counts ∧
      ∀ id, d.resource? id = .ok (m.resource? id) ∧ d.chunksFor id = .ok (m.chunksFor id) ∧
        d.triplesFor id = .ok (m.triplesFor id) := by
  intro a b chunk call calls
  have hepoch : Time.Timestamp.epoch.IsStorable := ⟨by decide, by decide, Or.inl (by decide)⟩
  have hinstants : ∀ c ∈ calls, c.resource.ingestedAt = Time.Timestamp.epoch ∧
      (c.resource.sizeBytes : Int) < signedBound64 := by decide
  have hnumbers : ∀ c ∈ calls, ∀ x ∈ c.chunks, x.seq < count64 ∧ x.startLine < count64 ∧
      x.endLine < count64 ∧ x.tokenCount < count64 := by decide
  -- Only the first file has a triple, so no id has to be computed.
  have howner : ∀ c ∈ calls, ∀ t ∈ c.triples, c.resource.id = "a" := by decide
  have hsingle : ∀ c ∈ calls, c.triples.length ≤ 1 := by decide
  have hrun : IsPipelineRun calls :=
    { same_place := by decide
      resource_fits := fun c hc => ⟨(hinstants c hc).2, (hinstants c hc).1 ▸ hepoch⟩
      chunk_owner := by decide
      chunk_ids := by decide
      chunk_ids_apart := by decide
      chunk_seqs := by decide
      chunk_count := by decide
      chunk_fits := by
        intro c hc x hx
        obtain ⟨hseq, hstart, hend, htokens⟩ := hnumbers c hc x hx
        exact ⟨hseq, hstart, hend, htokens⟩
      triple_owner := by decide
      triple_ids := by
        intro c hc
        have hlength := hsingle c hc
        match c.triples, hlength with
        | [], _ => exact List.nodup_nil
        | [t], _ => exact List.pairwise_singleton _ _
      triple_ids_apart := fun c hc c' hc' t ht t' ht' _ =>
        (howner c hc t ht).trans (howner c' hc' t' ht').symm
      triple_lines := by decide
      triple_fits := by decide }
  exact ⟨hrun, database_refines_memory hrun⟩

end CodeIndex.Store
