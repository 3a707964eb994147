import CodeIndex.Config.Basic
import CodeIndex.Config.Environment
import CodeIndex.Yaml.Reads
/-!
# Reading a configuration

From a document to a configuration. Everything may be left out and then has its built-in value.

The limits of the scheduler can also be given in the environment. These count only when the document
has no section for the scheduler at all.
-/

namespace CodeIndex.Config

open CodeIndex.Yaml CodeIndex.Yaml.Reads

/-! ### Sections -/

/-- The limits of the scheduler. -/
def Pipeline.read : Reads Pipeline := fun n => do
  let ms ← members ["max_concurrent_tasks", "max_queue_depth", "batch_size", "file_workers",
    "max_retained_tasks"] n
  let d : Pipeline := {}
  return {
    maxConcurrentTasks := ← ms.getD "max_concurrent_tasks" number d.maxConcurrentTasks
    maxQueueDepth := ← ms.getD "max_queue_depth" number d.maxQueueDepth
    batchSize := ← ms.getD "batch_size" number d.batchSize
    fileWorkers := ← ms.getD "file_workers" number d.fileWorkers
    maxRetainedTasks := ← ms.getD "max_retained_tasks" number d.maxRetainedTasks }

/-- The limits for chunks and parsing. -/
def Chunking.read : Reads Chunking := fun n => do
  let ms ← members ["max_chunk_tokens", "fallback_window_lines", "parse_timeout_ms"] n
  let d : Chunking := {}
  return {
    maxChunkTokens := ← ms.getD "max_chunk_tokens" number d.maxChunkTokens
    fallbackWindowLines := ← ms.getD "fallback_window_lines" number d.fallbackWindowLines
    parseTimeoutMs := ← ms.getD "parse_timeout_ms" number d.parseTimeoutMs }

/-- Which files are taken. -/
def Source.read : Reads Source := fun n => do
  let ms ← members ["exclude_dirs", "exclude_hidden", "max_file_bytes", "clone_dir"] n
  let d : Source := {}
  return {
    excludeDirs := ← ms.getD "exclude_dirs" (items text) d.excludeDirs
    excludeHidden := ← ms.getD "exclude_hidden" truth d.excludeHidden
    maxFileBytes := ← ms.getD "max_file_bytes" number d.maxFileBytes
    cloneDir := ← ms.getD "clone_dir" (optional text) d.cloneDir }

/-- A classification rule. -/
def readRule : Reads Classifier.Rule := fun n => do
  let ms ← members ["file_name", "path", "extensions", "classification", "academic"] n
  match ms.lookup "classification" with
  | none => throw (.missing "classification")
  | some kind =>
    return {
      fileName := ← ms.getD "file_name" (optional text) none
      path := ← ms.getD "path" (optional text) none
      extensions := ← ms.getD "extensions" (items text) []
      classification := ← case Classification.ofName? kind
      academic := ← ms.getD "academic" truth false }

/-- The classification rules. -/
def readRules : Reads (List Classifier.Rule) := fun n => do
  (← members ["rules"] n).getD "rules" (items readRule) Classifier.Rule.builtins

/-! ### The environment -/

/-- The number that a variable gives: digits, perhaps behind a plus sign. -/
def Environment.number? (env : Environment) (name : String) : Option Nat :=
  (env.value? name).bind fun s => numberIn? 10 (withoutPlus s.toList)

/-- The limits of the scheduler without a section for them. -/
def Pipeline.ofEnvironment (env : Environment) : Pipeline :=
  let d : Pipeline := {}
  { d with
    maxConcurrentTasks := (env.number? "CODEINTEL_MAX_TASKS").getD d.maxConcurrentTasks
    batchSize := (env.number? "CODEINTEL_BATCH_SIZE").getD d.batchSize
    fileWorkers := (env.number? "CODEINTEL_WORKERS").getD d.fileWorkers }

/-! ### Configurations -/

/-- A configuration, of which every section may be left out. -/
def ofNode (env : Environment) : Reads Config := fun n => do
  let ms ← members ["pipeline", "chunking", "source", "classifier"] n
  return {
    pipeline := ← ms.getD "pipeline" Pipeline.read (.ofEnvironment env)
    chunking := ← ms.getD "chunking" Chunking.read {}
    source := ← ms.getD "source" Source.read {}
    rules := ← ms.getD "classifier" readRules Classifier.Rule.builtins }

/-- The configuration that a text writes. -/
def ofText (env : Environment) (s : String) : Except ReadFault Config :=
  match Node.ofText? s with
  | .error problem => .error (.syntaxProblem problem)
  | .ok document => ofNode env (document.getD .empty)

/-- What a configuration file holds: nothing when there is none, or its bytes. -/
def load (env : Environment) (file : Option (List UInt8)) : Except Fault Config := do
  let config ← match file with
    | none => pure { pipeline := .ofEnvironment env }
    | some bytes =>
      match String.fromUTF8? ⟨bytes.toArray⟩ with
      | none => throw (.io (.reported "stream did not contain valid UTF-8"))
      | some s =>
        match ofText env s with
        | .ok config => pure config
        | .error cause => throw (.yaml cause.message)
  match config.validated with
  | .ok config => return config
  | .error cause => throw (.config cause)

end CodeIndex.Config
