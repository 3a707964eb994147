import CodeIndex.Chunk.Build
import CodeIndex.Classifier.Table
import CodeIndex.Event.Basic
import CodeIndex.Graph.Extract
import CodeIndex.Language.Registry
import CodeIndex.Source.Snapshot
import CodeIndex.Store.Attempt
/-!
# Ingesting one file

A file is read, classified, parsed, cut into chunks and searched for relationships, and all that was
computed is saved as a whole. If saving fails, the file is marked as failed and whatever was stored
for it before stays. A file never fails its task: it ends in an outcome, and one event tells which.

What can go wrong besides reading and saving (no parser, a parse that fails, a walk that stops) only
leaves warnings. The analysis is a function of the bytes and always comes to its end: that the
thread it runs on is aborted, after which the file would fail with the fault of the aborted analysis
and nothing would be saved for it, is left out.
-/

namespace CodeIndex.Ingest

/-- What all files of one task have in common. -/
structure Context where
  taskId : String
  repositoryRoot : String
  commitHash : Option String
  branch : Option String
  /-- The instant that its records carry. -/
  now : Time.Timestamp

/-- How one file ended. -/
inductive Outcome where
  | ingested (path : String) (chunks triples : Nat) (fallback : Bool)
  /-- The file could not be read or saved. -/
  | failed (path : String) (fault : Fault)
  /-- The task was cancelled before the file began. -/
  | skipped (path : String)
  deriving DecidableEq, Repr

/-- What files are processed with: the rules for their kinds, the parsers, the limits for chunks and
the store. -/
structure Processor (σ : Type) where
  rules : Classifier.Table
  languages : Language.Registry
  limits : ChunkLimits
  store : Store.Api σ

/-- What files are written to: the store, and all events so far. -/
structure Desk (σ : Type) where
  store : σ
  events : List Event

/-- The desk with one more event. -/
def Desk.emit {σ : Type} (d : Desk σ) (e : Event) : Desk σ :=
  { d with events := d.events ++ [e] }

/-! ### Parsers -/

/-- The parsers that one worker has made so far, by language. -/
abbrev ParserCache := List (String × Language.Parser)

/-- The parser for a language, which is made when the worker needs it first; what a factory says
when it makes none; and the parsers that the worker has from now on. -/
def obtainParser (languages : Language.Registry) (language : String) (cache : ParserCache) :
    Option Language.Parser × List String × ParserCache :=
  match cache.lookup language with
  | some parser => (some parser, [], cache)
  | none =>
    match languages.parser? language with
    | .ok (some parser) => (some parser, [], (language, parser) :: cache)
    | .ok none => (none, [], cache)
    | .error fault =>
      (none, ["parser unavailable, fallback chunking used: " ++ fault.message], cache)

/-- What comes of parsing a text with a parser, if there is one. -/
def parse (parser : Option Language.Parser) (text : String) : Parsed :=
  match parser with
  | none => .unsupported
  | some parser =>
    match parser text with
    | .ok tree => .tree tree
    | .error fault => .failed fault

/-! ### Analysis -/

/-- Everything that is computed for a file before it is saved. -/
structure Analysis where
  resource : Resource
  chunks : List Chunk
  triples : List Triple
  fallback : Bool

/-- What is reported when relationships could not be extracted to the end. -/
def extractionWarnings : Option ExtractionFault → List String
  | none => []
  | some cause => ["graph extraction incomplete: " ++ (Fault.extraction cause).message]

/-- Computes everything for a file from its bytes. -/
def analyze {σ : Type} (p : Processor σ) (ctx : Context) (path : String) (bytes : List UInt8)
    (cache : ParserCache) : Analysis × ParserCache :=
  let language := (p.languages.languageForPath? path).getD unknownLanguage
  let resource :=
    ((Resource.ofPath ctx.repositoryRoot path (p.rules.classify path bytes) language ctx.now
      ).atRevision ctx.commitHash ctx.branch).withContent bytes
  let (parser, unavailable, cache) := obtainParser p.languages language cache
  let text := Text.decodeLossy bytes
  let build := ChunkBuild.build p.limits resource (parse parser text) text
  let extraction := Graph.extract resource build.tree text
  let warnings := unavailable ++ build.warnings ++ extractionWarnings extraction.fault
  ({ resource := resource.addWarnings warnings
     chunks := build.chunks
     triples := extraction.triples
     fallback := build.isFallback }, cache)

/-! ### Saving -/

/-- The file fails: an event tells so. -/
def fail {σ : Type} (ctx : Context) (path : String) (fault : Fault) (d : Desk σ) :
    Outcome × Desk σ :=
  (.failed path fault, d.emit (.fileFailed ctx.taskId path fault))

/-- Saves what was computed for a file. If that fails, the file is marked as failed as far as the
store allows. -/
def save {σ : Type} (p : Processor σ) (ctx : Context) (a : Analysis) (d : Desk σ) :
    Outcome × Desk σ :=
  let path := a.resource.relativePath
  let completed := { a.resource with status := .completed }
  match p.store.saveFile completed a.chunks a.triples d.store with
  | (s, none) =>
    (.ingested path a.chunks.length a.triples.length a.fallback,
      { d with store := s }.emit
        (.fileIngested ctx.taskId path completed.id completed.classification completed.language
          a.chunks.length a.triples.length a.fallback))
  | (s, some fault) =>
    -- A fault of the mark itself is not reported: the outcome is that of the save.
    let s := (p.store.markFailed { a.resource with status := .failed } s).1
    fail ctx path fault { d with store := s }

/-- Ingests one file. -/
def process {σ : Type} (p : Processor σ) (ctx : Context) (file : Source.File)
    (cache : ParserCache) (d : Desk σ) : Outcome × ParserCache × Desk σ :=
  match file.content with
  | .error cause =>
    let (outcome, d) := fail ctx file.path (.io cause) d
    (outcome, cache, d)
  | .ok bytes =>
    let (a, cache) := analyze p ctx file.path bytes cache
    let (outcome, d) := save p ctx a d
    (outcome, cache, d)

end CodeIndex.Ingest
