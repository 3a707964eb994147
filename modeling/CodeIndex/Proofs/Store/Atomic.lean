import CodeIndex.Proofs.Keyed.Duplicates
import CodeIndex.Store.Memory
import Mathlib.Logic.Function.Basic
/-!
# Stores that save a file as a whole

What the pipeline relies on in a store: a file is saved as a whole or not at all, and marking a file
as failed touches nothing but its status (`Api.IsAtomic`). It is said of what can be read from the
store (`View`), so it leaves open how the store keeps it.

The store in memory is such a store (`Memory.isAtomic`), and so is every such store whose writes are
refused at any moments (`Api.IsAtomic.interrupted`).
-/

namespace CodeIndex.Store

open CodeIndex.Keyed

/-! ### How a write ends -/

namespace Attempt

variable {σ : Type}

/-- The write leaves a state that is `done` to the one before it, or fails and leaves one that is
`undone` to it. -/
def EndsIn (write : Attempt σ) (done undone : σ → σ → Prop) : Prop :=
  ∀ s, ((write s).2 = none ∧ done s (write s).1) ∨
    (∃ fault, (write s).2 = some fault ∧ undone s (write s).1)

theorem EndsIn.imp {write : Attempt σ} {done done' undone undone' : σ → σ → Prop}
    (h : write.EndsIn done undone) (hdone : ∀ s t, done s t → done' s t)
    (hundone : ∀ s t, undone s t → undone' s t) : write.EndsIn done' undone' := by
  intro s
  rcases h s with ⟨hok, hs⟩ | ⟨fault, hfault, hs⟩
  · exact Or.inl ⟨hok, hdone _ _ hs⟩
  · exact Or.inr ⟨fault, hfault, hundone _ _ hs⟩

/-- A write that is refused when the next of some answers says so. Without a further answer it is
made. -/
def unlessRefused (fault : Fault) (write : Attempt σ) : Attempt (σ × List Bool) :=
  fun (s, refusals) =>
    if refusals.headD false then ((s, refusals.tail), some fault)
    else (((write s).1, refusals.tail), (write s).2)

/-- A refusal is one more way to fail. -/
theorem EndsIn.unlessRefused {write : Attempt σ} {done undone : σ → σ → Prop}
    (h : write.EndsIn done undone) (hrefl : ∀ s, undone s s) (fault : Fault) :
    (write.unlessRefused fault).EndsIn (fun s t => done s.1 t.1) (fun s t => undone s.1 t.1) := by
  rintro ⟨s, refusals⟩
  rw [Attempt.unlessRefused]
  split
  · exact Or.inr ⟨fault, rfl, hrefl s⟩
  · exact h s

end Attempt

/-! ### What the pipeline relies on -/

/-- What can be read from a store. -/
structure View (σ : Type) where
  resource? : σ → String → Option Resource
  chunksFor : σ → String → List Chunk
  triplesFor : σ → String → List Triple

namespace View

variable {σ : Type} (view : View σ)

/-- Two states of a store in which the same is read. -/
structure Same (s t : σ) : Prop where
  resources : view.resource? t = view.resource? s
  chunks : view.chunksFor t = view.chunksFor s
  triples : view.triplesFor t = view.triplesFor s

/-- How a store looks after a file was saved: its resource, chunks and triples are what was given,
and nothing changes for other resources. What a store makes of several chunks or triples with one
id is left open. -/
structure Saved (r : Resource) (cs : List Chunk) (ts : List Triple) (s t : σ) : Prop where
  resources : view.resource? t = Function.update (view.resource? s) r.id (some r)
  chunks : (cs.map (·.id)).Nodup → view.chunksFor t r.id = cs
  triples : (ts.map Triple.id).Nodup → view.triplesFor t r.id = ts
  other_chunks : ∀ k ≠ r.id, view.chunksFor t k = view.chunksFor s k
  other_triples : ∀ k ≠ r.id, view.triplesFor t k = view.triplesFor s k

/-- The resource with the status of `r`, or `r` when there is none. -/
def withStatus (r : Resource) (stored : Option Resource) : Resource :=
  stored.elim r fun stored => { stored with status := r.status }

/-- How a store looks after a file was marked: an existing resource has another status, one that is
not there is taken in as it is given, and nothing else changes. -/
structure Marked (r : Resource) (s t : σ) : Prop where
  resources : view.resource? t
    = Function.update (view.resource? s) r.id (some (withStatus r (view.resource? s r.id)))
  chunks : view.chunksFor t = view.chunksFor s
  triples : view.triplesFor t = view.triplesFor s

/-- Two states of a store in which the same is read of all resources but one. -/
structure SameBut (id : String) (s t : σ) : Prop where
  resources : ∀ k ≠ id, view.resource? t k = view.resource? s k
  chunks : ∀ k ≠ id, view.chunksFor t k = view.chunksFor s k
  triples : ∀ k ≠ id, view.triplesFor t k = view.triplesFor s k

variable {view} {r : Resource} {s t : σ}

theorem Same.trans {u : σ} (h : view.Same s t) (h' : view.Same t u) : view.Same s u :=
  ⟨h'.resources.trans h.resources, h'.chunks.trans h.chunks, h'.triples.trans h.triples⟩

theorem Same.marked {u : σ} (h : view.Same s t) (h' : view.Marked r t u) : view.Marked r s u :=
  ⟨by rw [h'.resources, h.resources], h'.chunks.trans h.chunks, h'.triples.trans h.triples⟩

theorem Same.sameBut (h : view.Same s t) (id : String) : view.SameBut id s t :=
  ⟨fun k _ => congrFun h.resources k, fun k _ => congrFun h.chunks k,
    fun k _ => congrFun h.triples k⟩

theorem Saved.sameBut {cs : List Chunk} {ts : List Triple} (h : view.Saved r cs ts s t) :
    view.SameBut r.id s t where
  resources := fun k hk => by rw [h.resources, Function.update_of_ne hk]
  chunks := h.other_chunks
  triples := h.other_triples

theorem Marked.sameBut (h : view.Marked r s t) : view.SameBut r.id s t where
  resources := fun k hk => by rw [h.resources, Function.update_of_ne hk]
  chunks := fun k _ => congrFun h.chunks k
  triples := fun k _ => congrFun h.triples k

end View

/-- Files are saved as a whole or not at all, and marks touch nothing but a status. -/
structure Api.IsAtomic {σ : Type} (api : Api σ) (view : View σ) : Prop where
  saveFile : ∀ r cs ts, (api.saveFile r cs ts).EndsIn (view.Saved r cs ts) view.Same
  markFailed : ∀ r, (api.markFailed r).EndsIn (view.Marked r) view.Same

/-! ### The store in memory -/

namespace Memory

/-- The readings of the store in memory. -/
def view : View Memory := ⟨resource?, chunksFor, triplesFor⟩

theorem distinctChunks_of_nodup {cs : List Chunk} (h : (cs.map (·.id)).Nodup) :
    distinctChunks cs = cs :=
  dedupByKey_of_nodup _ h

theorem distinctTriples_of_nodup {ts : List Triple} (h : (ts.map Triple.id).Nodup) :
    distinctTriples ts = ts :=
  dedupByKey_of_nodup _ h

/-- What is read for a key after putting. -/
theorem lookUp_put_eq_update {α : Type} (key : α → String) (x : α) (xs : List α) :
    (fun k => lookUp key k (put key x xs))
      = Function.update (fun k => lookUp key k xs) (key x) (some x) := by
  funext k
  rw [lookUp_put, Function.update_apply]
  by_cases h : key x = k
  · rw [if_pos h, if_pos h.symm]
  · rw [if_neg h, if_neg (Ne.symm h)]

/-- Putting a group changes what is read for one resource. -/
theorem groups_put {α : Type} (id : String) (xs : List α) (groups : List (String × List α)) :
    (fun k => ((lookUp (·.1) k (put (·.1) (id, xs) groups)).map (·.2)).getD [])
      = Function.update (fun k => ((lookUp (·.1) k groups).map (·.2)).getD []) id xs := by
  have hput := lookUp_put_eq_update (·.1) (id, xs) groups
  funext k
  rw [congrFun hput k, Function.update_apply, Function.update_apply]
  by_cases h : k = id
  · rw [if_pos h, if_pos h]
    rfl
  · rw [if_neg h, if_neg h]

theorem saved_saveFile (r : Resource) (cs : List Chunk) (ts : List Triple) (m : Memory) :
    view.Saved r cs ts m (api.saveFile r cs ts m).1 := by
  have hchunks : view.chunksFor (api.saveFile r cs ts m).1
      = Function.update (view.chunksFor m) r.id (distinctChunks cs) :=
    groups_put r.id (distinctChunks cs) m.chunks
  have htriples : view.triplesFor (api.saveFile r cs ts m).1
      = Function.update (view.triplesFor m) r.id (distinctTriples ts) :=
    groups_put r.id (distinctTriples ts) m.triples
  constructor
  case resources => exact lookUp_put_eq_update _ r m.resources
  case chunks =>
    intro hdistinct
    rw [hchunks, Function.update_self, distinctChunks_of_nodup hdistinct]
  case triples =>
    intro hdistinct
    rw [htriples, Function.update_self, distinctTriples_of_nodup hdistinct]
  case other_chunks =>
    intro k hk
    rw [hchunks, Function.update_of_ne hk]
  case other_triples =>
    intro k hk
    rw [htriples, Function.update_of_ne hk]

theorem marked_markFailed (r : Resource) (m : Memory) :
    view.Marked r m (api.markFailed r m).1 where
  resources := by
    funext k
    rw [Function.update_apply]
    exact lookUp_alter (·.id) (f := fun stored => { stored with status := r.status })
      (fun _ hy => hy) rfl k m.resources
  chunks := rfl
  triples := rfl

/-- The store in memory saves files as a whole. -/
theorem isAtomic : api.IsAtomic view where
  saveFile := fun r cs ts m => Or.inl ⟨rfl, saved_saveFile r cs ts m⟩
  markFailed := fun r m => Or.inl ⟨rfl, marked_markFailed r m⟩

end Memory

/-! ### Refused writes -/

/-- A store whose writes are refused as some answers say, one answer for each write. -/
def Api.interrupted {σ : Type} (api : Api σ) (fault : Fault) : Api (σ × List Bool) where
  saveResource := fun r => (api.saveResource r).unlessRefused fault
  saveChunks := fun id cs => (api.saveChunks id cs).unlessRefused fault
  saveTriples := fun id ts => (api.saveTriples id ts).unlessRefused fault
  saveFile := fun r cs ts => (api.saveFile r cs ts).unlessRefused fault
  markFailed := fun r => (api.markFailed r).unlessRefused fault

/-- The readings of a store that keeps something else besides. -/
def View.onFirst {σ τ : Type} (view : View σ) : View (σ × τ) :=
  ⟨fun s => view.resource? s.1, fun s => view.chunksFor s.1, fun s => view.triplesFor s.1⟩

/-- Refusals do no harm, whichever writes they strike. -/
theorem Api.IsAtomic.interrupted {σ : Type} {api : Api σ} {view : View σ} (h : api.IsAtomic view)
    (fault : Fault) : (api.interrupted fault).IsAtomic view.onFirst where
  saveFile := fun r cs ts =>
    ((h.saveFile r cs ts).unlessRefused (fun _ => ⟨rfl, rfl, rfl⟩) fault).imp
      (fun _ _ hsaved => ⟨hsaved.resources, hsaved.chunks, hsaved.triples, hsaved.other_chunks,
        hsaved.other_triples⟩)
      (fun _ _ hsame => ⟨hsame.resources, hsame.chunks, hsame.triples⟩)
  markFailed := fun r =>
    ((h.markFailed r).unlessRefused (fun _ => ⟨rfl, rfl, rfl⟩) fault).imp
      (fun _ _ hmarked => ⟨hmarked.resources, hmarked.chunks, hmarked.triples⟩)
      (fun _ _ hsame => ⟨hsame.resources, hsame.chunks, hsame.triples⟩)

end CodeIndex.Store
