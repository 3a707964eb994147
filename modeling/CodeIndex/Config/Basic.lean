import CodeIndex.Chunk.Pieces
import CodeIndex.Classifier.Rule
import CodeIndex.Fault
/-!
# Configuration

Every limit and option that a user can set, with the built-in value of each. A configuration is
refused when one of its limits is zero; the limits are checked in a fixed order, so of several zeros
the first is reported.
-/

namespace CodeIndex

/-- The limits of the scheduler. -/
structure Config.Pipeline where
  /-- The tasks that may be processed at once. -/
  maxConcurrentTasks : Nat := 3
  /-- The pending tasks beyond which a submission is refused. -/
  maxQueueDepth : Nat := 64
  /-- The files of a batch. -/
  batchSize : Nat := 50
  /-- The workers of a task. -/
  fileWorkers : Nat := 4
  /-- The tasks beyond which ended tasks are let go. -/
  maxRetainedTasks : Nat := 256
  deriving DecidableEq, Repr

/-- The limits for chunks and parsing. -/
structure Config.Chunking where
  maxChunkTokens : Nat := 2000
  /-- The lines of a window in a file without a tree. -/
  fallbackWindowLines : Nat := 80
  parseTimeoutMs : Nat := 5000
  deriving DecidableEq, Repr

/-- Directories that are not searched unless a user says otherwise. -/
def Config.skippedDirectories : List String :=
  ["node_modules", ".git", ".cache", "vendor", "dist", "build", "__pycache__", ".venv", "target",
    ".tox", ".mypy_cache", ".gradle"]

/-- Which files of a source are taken. -/
structure Config.Source where
  excludeDirs : List String := Config.skippedDirectories
  excludeHidden : Bool := true
  /-- Larger files are left out. -/
  maxFileBytes : Nat := 1048576
  /-- Where temporary checkouts are made. -/
  cloneDir : Option String := none
  deriving DecidableEq, Repr

/-- A configuration. -/
structure Config where
  pipeline : Config.Pipeline := {}
  chunking : Config.Chunking := {}
  source : Config.Source := {}
  /-- The classification rules. -/
  rules : List Classifier.Rule := Classifier.Rule.builtins
  deriving DecidableEq, Repr

namespace Config

/-- The limits for chunks. -/
def Chunking.limits (c : Chunking) : ChunkLimits :=
  .ofNats c.maxChunkTokens c.fallbackWindowLines

/-- The limits that may not be zero, by name, in the order in which they are checked. -/
def limits (c : Config) : List (String × Nat) :=
  [ ("pipeline.max_concurrent_tasks", c.pipeline.maxConcurrentTasks),
    ("pipeline.max_queue_depth", c.pipeline.maxQueueDepth),
    ("pipeline.batch_size", c.pipeline.batchSize),
    ("pipeline.file_workers", c.pipeline.fileWorkers),
    ("chunking.max_chunk_tokens", c.chunking.maxChunkTokens),
    ("chunking.fallback_window_lines", c.chunking.fallbackWindowLines),
    ("chunking.parse_timeout_ms", c.chunking.parseTimeoutMs) ]

/-- The configuration, if none of its limits is zero. -/
def validated (c : Config) : Except ConfigFault Config :=
  match c.limits.find? fun limit => limit.2 == 0 with
  | some limit => .error (.notPositive limit.1)
  | none => .ok c

end Config

end CodeIndex
