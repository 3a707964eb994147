import CodeIndex.Chunk.Basic
import CodeIndex.Fault
import CodeIndex.Resource
import CodeIndex.Triple
/-!
# Writing to a store

A write takes a state to the state it leaves behind and, if it did not go through, the fault. A
write that fails half-way leaves the first half behind, unless it is made atomic: then a failure
leaves the state as it was.

A store is what the pipeline writes to. It either brings its own way to save a file as a whole or
makes do with three writes one after the other.
-/

namespace CodeIndex.Store

/-- A write: the state it leaves behind, and the fault that stopped it. -/
abbrev Attempt (σ : Type) := σ → σ × Option Fault

namespace Attempt

/-- Changes the state. -/
def change {σ : Type} (f : σ → σ) : Attempt σ := fun s => (f s, none)

/-- Fails without any change. -/
def fail {σ : Type} (fault : Fault) : Attempt σ := fun s => (s, some fault)

/-- One write after the other; the second is not made when the first fails. -/
def andThen {σ : Type} (first second : Attempt σ) : Attempt σ := fun s =>
  match first s with
  | (s, none) => second s
  | (s, some fault) => (s, some fault)

/-- All writes in order, up to the first that fails. -/
def all {σ : Type} : List (Attempt σ) → Attempt σ
  | [] => change id
  | write :: writes => andThen write (all writes)

/-- A write that changes nothing when it fails. -/
def atomically {σ : Type} (write : Attempt σ) : Attempt σ := fun s =>
  match write s with
  | (s, none) => (s, none)
  | (_, some fault) => (s, some fault)

/-- An atomic write that fails leaves the state as it was. -/
theorem atomically_of_fault {σ : Type} {write : Attempt σ} {s : σ}
    (h : (atomically write s).2 ≠ none) : (atomically write s).1 = s := by
  unfold atomically at h ⊢
  split at h
  · exact absurd rfl h
  · rfl

end Attempt

/-- What the pipeline can do with a store. -/
structure Api (σ : Type) where
  saveResource : Resource → Attempt σ
  saveChunks : String → List Chunk → Attempt σ
  saveTriples : String → List Triple → Attempt σ
  /-- Saves a file with its chunks and triples. -/
  saveFile : Resource → List Chunk → List Triple → Attempt σ
  /-- Records that a file failed, without touching earlier chunks and triples. -/
  markFailed : Resource → Attempt σ

/-- A store with the three basic writes alone. A file is saved by its chunks, its triples and then
its resource, so that its status only changes once everything else is there. -/
def Api.ofBasic {σ : Type} (saveResource : Resource → Attempt σ)
    (saveChunks : String → List Chunk → Attempt σ)
    (saveTriples : String → List Triple → Attempt σ) : Api σ where
  saveResource := saveResource
  saveChunks := saveChunks
  saveTriples := saveTriples
  saveFile := fun resource chunks triples =>
    .all [saveChunks resource.id chunks, saveTriples resource.id triples, saveResource resource]
  markFailed := saveResource

end CodeIndex.Store
