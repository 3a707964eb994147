import CodeIndex.Ingest.Processor
import CodeIndex.Proofs.Chunk.Distinct
import CodeIndex.Proofs.Graph.Order
import CodeIndex.Proofs.Store.Atomic
/-!
# A file lands as a whole or leaves earlier results alone

`process_lands_or_leaves`: in a store that saves files as a whole, a file ends in one of two ways.
It is taken in, and the store has its resource, completed, with exactly the chunks and triples that
were computed. Or it fails, and no chunk or triple has changed anywhere; at most the status of its
own resource has. Nothing ever changes for another resource, and one event tells which way it was.

The store may drop repetitions, so what was computed has to have none: the triples of a file have
identities of their own by the extractor's last step (`nodup_triples_analyze`), its chunks because
they begin at different lines, unless the hash confuses two of them (`nodup_chunks_analyze`).
-/

namespace CodeIndex.Ingest

open CodeIndex.Number CodeIndex.Store

variable {σ : Type} (p : Processor σ) (ctx : Context) (path : String) (bytes : List UInt8)
  (cache : ParserCache)

/-! ### What is computed -/

/-- The identity of the file at a path. -/
def fileId (ctx : Context) (path : String) : String :=
  Identity.ofResource ctx.repositoryRoot path

theorem id_analyze : (analyze p ctx path bytes cache).1.resource.id = fileId ctx path := rfl

theorem relativePath_analyze : (analyze p ctx path bytes cache).1.resource.relativePath = path :=
  rfl

theorem repositoryRoot_analyze :
    (analyze p ctx path bytes cache).1.resource.repositoryRoot = ctx.repositoryRoot := rfl

/-- Extracted triples have identities of their own. -/
theorem nodup_ids_extract (resource : Resource) (tree : Option Syntax.Tree) (source : String) :
    ((Graph.extract resource tree source).triples.map Triple.id).Nodup := by
  cases tree with
  | none => exact List.nodup_nil
  | some t => exact (Graph.nodup_distinctOn Triple.id [] _).1

theorem nodup_triples_analyze :
    ((analyze p ctx path bytes cache).1.triples.map Triple.id).Nodup :=
  nodup_ids_extract _ _ _

theorem nodup_chunks_analyze (hsize : bytes.length < count64)
    (hfree : Identity.IsCollisionFree
      ((analyze p ctx path bytes cache).1.chunks.map Chunk.key)) :
    ((analyze p ctx path bytes cache).1.chunks.map (·.id)).Nodup := by
  have hlines : (Lines.ofText (Text.decodeLossy bytes)).length < count64 := by
    have hlength := Lines.length_ofText_le (Text.decodeLossy bytes)
    have hdecode := Text.length_decodeLossy_le bytes
    omega
  exact ChunkBuild.nodup_ids _ _ _ _ hlines hfree

/-! ### How a file ends -/

/-- The file is in the store as it was computed, and an event tells so. Only where the hash gives
two of its chunks one identity may a store keep other chunks. -/
structure Landed (view : View σ) (a : Analysis) (d d' : Desk σ) (outcome : Outcome) : Prop where
  outcome_eq : outcome = .ingested path a.chunks.length a.triples.length a.fallback
  resource : view.resource? d'.store (fileId ctx path)
    = some { a.resource with status := .completed }
  chunks : bytes.length < count64 → Identity.IsCollisionFree (a.chunks.map Chunk.key) →
    view.chunksFor d'.store (fileId ctx path) = a.chunks
  triples : view.triplesFor d'.store (fileId ctx path) = a.triples
  events_eq : d'.events = d.events ++
    [.fileIngested ctx.taskId path (fileId ctx path) a.resource.classification a.resource.language
      a.chunks.length a.triples.length a.fallback]

/-- All that may become of the resource of a file that fails: it stays, it is marked as failed, or
it is taken in as a failed one. -/
def IsKeptOrMarked (before after : Option Resource) : Prop :=
  after = before ∨
  (∃ stored, before = some stored ∧ after = some { stored with status := .failed }) ∨
  (before = none ∧ ∃ r, after = some r ∧ r.id = fileId ctx path ∧
    r.repositoryRoot = ctx.repositoryRoot ∧ r.relativePath = path ∧ r.status = .failed)

/-- The file failed, no chunk or triple in the store has changed, and an event tells so. -/
structure LeftAlone (view : View σ) (d d' : Desk σ) (outcome : Outcome) : Prop where
  failed : ∃ fault, outcome = .failed path fault ∧
    d'.events = d.events ++ [.fileFailed ctx.taskId path fault]
  chunks : view.chunksFor d'.store = view.chunksFor d.store
  triples : view.triplesFor d'.store = view.triplesFor d.store
  own_resource : IsKeptOrMarked ctx path (view.resource? d.store (fileId ctx path))
    (view.resource? d'.store (fileId ctx path))

variable {p ctx path bytes cache} {view : View σ}

/-- A failure after which the same is read as before. -/
theorem leftAlone_of_same {d d' : Desk σ} {fault : Fault} (h : view.Same d.store d'.store)
    (hevents : d'.events = d.events ++ [.fileFailed ctx.taskId path fault]) :
    LeftAlone ctx path view d d' (.failed path fault) where
  failed := ⟨fault, rfl, hevents⟩
  chunks := h.chunks
  triples := h.triples
  own_resource := Or.inl (congrFun h.resources _)

section Save

variable {a : Analysis} (hid : a.resource.id = fileId ctx path)
  (hpath : a.resource.relativePath = path) (hroot : a.resource.repositoryRoot = ctx.repositoryRoot)
include hid hpath hroot

/-- A failure after which the file was marked. -/
theorem leftAlone_of_marked {d d' : Desk σ} {fault : Fault}
    (h : view.Marked { a.resource with status := .failed } d.store d'.store)
    (hevents : d'.events = d.events ++ [.fileFailed ctx.taskId path fault]) :
    LeftAlone ctx path view d d' (.failed path fault) where
  failed := ⟨fault, rfl, hevents⟩
  chunks := h.chunks
  triples := h.triples
  own_resource := by
    have hown := congrFun h.resources (fileId ctx path)
    rw [← hid] at hown ⊢
    rw [Function.update_self] at hown
    cases hstored : view.resource? d.store a.resource.id with
    | none =>
      rw [hstored] at hown
      exact Or.inr (Or.inr ⟨rfl, _, hown, hid, hroot, hpath, rfl⟩)
    | some stored =>
      rw [hstored] at hown
      exact Or.inr (Or.inl ⟨stored, rfl, hown⟩)

omit hpath hroot in
/-- A file that was saved. -/
theorem landed_of_saved {d d' : Desk σ}
    (h : view.Saved { a.resource with status := .completed } a.chunks a.triples d.store d'.store)
    (hchunks : bytes.length < count64 → Identity.IsCollisionFree (a.chunks.map Chunk.key) →
      (a.chunks.map (·.id)).Nodup)
    (htriples : (a.triples.map Triple.id).Nodup)
    (hevents : d'.events = d.events ++
      [.fileIngested ctx.taskId path (fileId ctx path) a.resource.classification
        a.resource.language a.chunks.length a.triples.length a.fallback]) :
    Landed ctx path bytes view a d d'
      (.ingested path a.chunks.length a.triples.length a.fallback) where
  outcome_eq := rfl
  resource := by
    rw [← hid, h.resources]
    exact Function.update_self _ _ _
  chunks := fun hsize hfree => by
    rw [← hid]
    exact h.chunks (hchunks hsize hfree)
  triples := by
    rw [← hid]
    exact h.triples htriples
  events_eq := hevents

/-- What becomes of a file once everything is computed for it. -/
theorem save_cases (hstore : p.store.IsAtomic view) (d : Desk σ)
    (hchunks : bytes.length < count64 → Identity.IsCollisionFree (a.chunks.map Chunk.key) →
      (a.chunks.map (·.id)).Nodup)
    (htriples : (a.triples.map Triple.id).Nodup) :
    (Landed ctx path bytes view a d (save p ctx a d).2 (save p ctx a d).1 ∨
      LeftAlone ctx path view d (save p ctx a d).2 (save p ctx a d).1) ∧
    view.SameBut (fileId ctx path) d.store (save p ctx a d).2.store := by
  have hsave := hstore.saveFile { a.resource with status := .completed } a.chunks a.triples d.store
  rw [save, hpath]
  cases hwrite : p.store.saveFile { a.resource with status := .completed } a.chunks a.triples
    d.store with
  | mk s fault? =>
    rw [hwrite] at hsave
    rcases hsave with ⟨rfl, hsaved⟩ | ⟨fault, rfl, hsame⟩
    · refine ⟨Or.inl (landed_of_saved hid hsaved hchunks htriples ?_), ?_⟩
      · rw [← hid]
        rfl
      · rw [← hid]
        exact hsaved.sameBut
    · -- Whether the mark goes through decides what is read of the file, and nothing else.
      rcases hstore.markFailed { a.resource with status := .failed } s with
        ⟨-, hmarked⟩ | ⟨-, -, hunmarked⟩
      · have hmarked' := hsame.marked hmarked
        refine ⟨Or.inr (leftAlone_of_marked hid hpath hroot hmarked' rfl), ?_⟩
        rw [← hid]
        exact hmarked'.sameBut
      · have hsame' := hsame.trans hunmarked
        exact ⟨Or.inr (leftAlone_of_same hsame' rfl), hsame'.sameBut _⟩

end Save

end CodeIndex.Ingest

namespace CodeIndex

open CodeIndex.Number CodeIndex.Store CodeIndex.Ingest

/-- **All or nothing**: in a store that saves files as a whole a file lands as it was computed, or
fails and leaves everything but its own status alone. Other resources never change, in particular
those at other paths. -/
theorem process_lands_or_leaves {σ : Type} {p : Processor σ} {view : View σ}
    (hstore : p.store.IsAtomic view) (ctx : Context) (file : Source.File) (cache : ParserCache)
    (d : Desk σ) :
    let outcome := (process p ctx file cache d).1
    let d' := (process p ctx file cache d).2.2
    ((∃ bytes, file.content = .ok bytes ∧
        Landed ctx file.path bytes view (analyze p ctx file.path bytes cache).1 d d' outcome) ∨
      LeftAlone ctx file.path view d d' outcome) ∧
    view.SameBut (fileId ctx file.path) d.store d'.store ∧
    -- A path has one identity, so what is stored at another path is another resource.
    ((∀ r, view.resource? d.store (fileId ctx file.path) = some r → r.relativePath = file.path) →
      ∀ id r, view.resource? d.store id = some r → r.relativePath ≠ file.path →
        view.resource? d'.store id = some r) := by
  have hcases : ((∃ bytes, file.content = .ok bytes ∧
        Landed ctx file.path bytes view (analyze p ctx file.path bytes cache).1 d
          (process p ctx file cache d).2.2 (process p ctx file cache d).1) ∨
      LeftAlone ctx file.path view d (process p ctx file cache d).2.2
        (process p ctx file cache d).1) ∧
      view.SameBut (fileId ctx file.path) d.store (process p ctx file cache d).2.2.store := by
    rw [process]
    cases hcontent : file.content with
    | error cause =>
      -- A file that cannot be read never comes near the store.
      have hsame : view.Same d.store d.store := ⟨rfl, rfl, rfl⟩
      exact ⟨Or.inr (leftAlone_of_same hsame rfl), hsame.sameBut _⟩
    | ok bytes =>
      obtain ⟨hend, hothers⟩ := save_cases (id_analyze p ctx file.path bytes cache)
        (relativePath_analyze p ctx file.path bytes cache)
        (repositoryRoot_analyze p ctx file.path bytes cache) hstore d
        (nodup_chunks_analyze p ctx file.path bytes cache)
        (nodup_triples_analyze p ctx file.path bytes cache)
      exact ⟨hend.imp_left fun hlanded => ⟨bytes, rfl, hlanded⟩, hothers⟩
  obtain ⟨hend, hothers⟩ := hcases
  refine ⟨hend, hothers, fun hplace id r hr hpath => ?_⟩
  have hne : id ≠ fileId ctx file.path := by
    rintro rfl
    exact hpath (hplace r hr)
  exact (hothers.resources id hne).trans hr

/-- A file of two chunks is saved. Then the store refuses to save it, and to mark it as well. -/
theorem process_lands_or_leaves_refused :
    let fault : Fault := .persist (.reported "disk full")
    let p : Processor (Memory × List Bool) :=
      ⟨⟨[]⟩, .empty, .ofNats 1 1, Memory.api.interrupted fault⟩
    let ctx : Context := ⟨"t", "/r", none, none, .epoch⟩
    let file : Source.File := ⟨"a.txt", .ok [97, 10, 98]⟩
    let a := (analyze p ctx "a.txt" [97, 10, 98] []).1
    let empty : Desk (Memory × List Bool) := ⟨(.empty, [false, true, true]), []⟩
    let saved := (process p ctx file [] empty).2.2
    (process p ctx file [] empty).1 = .ingested "a.txt" 2 0 true ∧
    Memory.view.onFirst.chunksFor saved.store (fileId ctx "a.txt") = a.chunks ∧
    (process p ctx file [] saved).1 = .failed "a.txt" fault ∧
    LeftAlone ctx "a.txt" Memory.view.onFirst saved (process p ctx file [] saved).2.2
      (process p ctx file [] saved).1 := by
  intro fault p ctx file a empty saved
  have hstore : p.store.IsAtomic Memory.view.onFirst := Memory.isAtomic.interrupted fault
  have hingested : (process p ctx file [] empty).1 = .ingested "a.txt" 2 0 true := by
    decide +kernel
  have hfailed : (process p ctx file [] saved).1 = .failed "a.txt" fault := by
    decide +kernel
  have hfree : Identity.IsCollisionFree (a.chunks.map Chunk.key) := by
    decide +kernel
  obtain ⟨hfirst, -⟩ := process_lands_or_leaves hstore ctx file [] empty
  obtain ⟨hsecond, -⟩ := process_lands_or_leaves hstore ctx file [] saved
  refine ⟨hingested, ?_, hfailed, hsecond.resolve_left ?_⟩
  · rcases hfirst with ⟨bytes, hcontent, hlanded⟩ | hleft
    · obtain rfl : [97, 10, 98] = bytes := Except.ok.inj hcontent
      exact hlanded.chunks (by decide) hfree
    · obtain ⟨_, houtcome, -⟩ := hleft.failed
      cases hingested.symm.trans houtcome
  · rintro ⟨bytes, -, hlanded⟩
    cases hfailed.symm.trans hlanded.outcome_eq

end CodeIndex
