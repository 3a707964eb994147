import CodeIndex.Keyed
import CodeIndex.Store.Attempt
/-!
# The store in memory

Resources by their id, and for each resource its chunks and its triples. Saving never fails, and
saving the chunks or triples of a resource replaces those it had. Of several chunks or triples with
one id the last counts.
-/

namespace CodeIndex.Store

open CodeIndex.Keyed

/-- The store in memory. -/
structure Memory where
  resources : List Resource
  chunks : List (String × List Chunk)
  triples : List (String × List Triple)

namespace Memory

/-- The store without any files. -/
def empty : Memory := ⟨[], [], []⟩

/-! ### Writing -/

/-- The chunks with one for each id. -/
def distinctChunks (cs : List Chunk) : List Chunk := dedupByKey (·.id) cs

/-- The triples with one for each id. -/
def distinctTriples (ts : List Triple) : List Triple := dedupByKey Triple.id ts

/-- The store with a resource. -/
def putResource (r : Resource) (m : Memory) : Memory :=
  { m with resources := put (·.id) r m.resources }

/-- The store with the chunks of a resource. -/
def putChunks (id : String) (cs : List Chunk) (m : Memory) : Memory :=
  { m with chunks := put (·.1) (id, distinctChunks cs) m.chunks }

/-- The store with the triples of a resource. -/
def putTriples (id : String) (ts : List Triple) (m : Memory) : Memory :=
  { m with triples := put (·.1) (id, distinctTriples ts) m.triples }

/-- The store with the status of a resource; a resource it does not hold is added. -/
def putStatus (r : Resource) (m : Memory) : Memory :=
  { m with
    resources :=
      alter (·.id) r.id (fun stored => { stored with status := r.status }) r m.resources }

/-- The store's writes. -/
def api : Api Memory where
  saveResource := fun r => .change (putResource r)
  saveChunks := fun id cs => .change (putChunks id cs)
  saveTriples := fun id ts => .change (putTriples id ts)
  saveFile := fun r cs ts =>
    .change fun m => putResource r (putTriples r.id ts (putChunks r.id cs m))
  markFailed := fun r => .change (putStatus r)

/-! ### Reading -/

/-- The resource with an id. -/
def resource? (m : Memory) (id : String) : Option Resource :=
  lookUp (·.id) id m.resources

/-- A resource with a path. -/
def resourceByPath? (m : Memory) (path : String) : Option Resource :=
  m.resources.find? fun r => r.relativePath == path

/-- The chunks of a resource. -/
def chunksFor (m : Memory) (id : String) : List Chunk :=
  ((lookUp (·.1) id m.chunks).map (·.2)).getD []

/-- The triples of a resource. -/
def triplesFor (m : Memory) (id : String) : List Triple :=
  ((lookUp (·.1) id m.triples).map (·.2)).getD []

/-- Resources by path, and by id where paths are equal. -/
def byPath (rs : List Resource) : List Resource :=
  rs.mergeSort fun a b =>
    decide (a.relativePath < b.relativePath) ||
      (a.relativePath == b.relativePath && !decide (b.id < a.id))

/-- All resources. -/
def sortedResources (m : Memory) : List Resource := byPath m.resources

/-- The numbers of resources, chunks and triples. -/
def counts (m : Memory) : Nat × Nat × Nat :=
  (m.resources.length, (m.chunks.flatMap (·.2)).length, (m.triples.flatMap (·.2)).length)

end Memory

end CodeIndex.Store
