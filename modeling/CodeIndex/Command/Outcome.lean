import CodeIndex.Command.Help
import CodeIndex.Command.Session
import CodeIndex.Scheduler.Settle
import CodeIndex.Store.Database
/-!
# Outcomes of commands

What a command prints, what it reports beside that and how it ends. A command that fails has printed
nothing, except that ingesting prints the record of a task that failed.
-/

namespace CodeIndex.Command

/-- What comes of a command. -/
structure Outcome where
  /-- The text that is printed. -/
  output : String
  /-- Lines beside the output, warnings and errors among them. -/
  messages : List String
  exitCode : Nat
  /-- The index that is to be kept, and where. -/
  index : Option (String × Store.Database)

namespace Outcome

/-- A command that prints a text. -/
def printing (output : String) (messages : List String) : Outcome := ⟨output, messages, 0, none⟩

/-- The line that reports a failure. -/
def errorLine (f : Failure) : String := "Error: " ++ f.message

/-- A command that fails. -/
def ofFailure (f : Failure) : Outcome := ⟨"", [errorLine f], f.exitCode, none⟩

/-- The line that reports a warning. -/
def warningLine (text : String) : String := "Warning: " ++ text

end Outcome

open Report

/-! ### Languages and classifications -/

/-- The languages with their extensions. -/
def runLanguages (s : Session) (format : Format) : Outcome :=
  let rows := s.languages.languages.map fun name => (name, s.languages.extensionsFor name)
  .printing
    (match format with
    | .json =>
      document (.arr (rows.map fun (name, extensions) =>
        .obj [("extensions", Json.strs extensions), ("language", .str name)]))
    | .terminal =>
      String.join (rows.map fun (name, extensions) =>
        padRight 12 name ++ " " ++ String.intercalate ", " extensions ++ "\n"))
    []

/-- The classification of a file that the user names. -/
def classifyFile (s : Session) (table : Classifier.Table) (path : String) :
    Except Failure (String × Classification) := do
  let absolute ← (s.locate path).mapError (.cannotRead path)
  let content ← (s.tree.contentOf absolute).mapError (.cannotRead path)
  return (Path.withSlashes path, s.classify table absolute content)

/-- The classifications of some files. -/
def runClassify (s : Session) (config : Config) (format : Format) (files : List String) :
    Except Failure Outcome := do
  let table ← (Session.rules config).mapError .fault
  let rows ← files.mapM (classifyFile s table)
  return .printing
    (match format with
    | .json =>
      document (.arr (rows.map fun (path, kind) =>
        .obj [("classification", .str kind.name), ("path", .str path)]))
    | .terminal =>
      String.join (rows.map fun (path, kind) => padRight 10 kind.name ++ " " ++ path ++ "\n"))
    []

/-! ### Chunks and relationships -/

/-- The chunks of a file. -/
def runChunks (s : Session) (config : Config) (format : Format) (file : String)
    (maxTokens : Option Nat) (content : Bool) : Except Failure Outcome := do
  let opened ← s.openFile config file
  let limits := ChunkLimits.ofNats (maxTokens.getD config.chunking.maxChunkTokens)
    config.chunking.fallbackWindowLines
  let build := ChunkBuild.build limits opened.resource opened.parsed opened.text
  return .printing (chunks format content build.chunks) (build.warnings.map Outcome.warningLine)

/-- The syntax tree of a text that could be parsed, and the warning about one that could not. -/
def treeOf : Parsed → Option Syntax.Tree × List String
  | .tree tree => (some tree, [])
  | .failed cause => (none, ["parse failed, no graph extracted: " ++ cause.message])
  | .unsupported => (none, [])

/-- The relationships in a file. -/
def runGraph (s : Session) (config : Config) (format : Format) (file : String) :
    Except Failure Outcome := do
  let opened ← s.openFile config file
  let (tree, unparsed) := treeOf opened.parsed
  let extraction := Graph.extract opened.resource tree opened.text
  return .printing (triples format extraction.triples)
    ((unparsed ++ Ingest.extractionWarnings extraction.fault).map Outcome.warningLine)

/-! ### Ingesting -/

/-- The path of the index, if an index can be kept there. -/
def indexPath (s : Session) (given : Option String) : Except Failure String := do
  let path := (given.or (s.environment.value? "CODEINTEL_DB")).getD s.environment.standardIndexFile
  match Path.parent? path with
  | some directory =>
    (s.tree.admitsDirectory s.workingDirectory directory).mapError (Failure.fault ∘ Fault.io)
  | none => pure ()
  match s.tree.resolveAt s.workingDirectory path with
  | .ok (_, .directory _) => throw (.fault (.database (.cannotOpen path)))
  | _ => return path

/-- The scheduler of a session. -/
def scheduling (s : Session) (config : Config) (table : Classifier.Table) :
    Scheduler.Setting Store.Database where
  limits := config.pipeline
  processor := ⟨table, s.languages, config.chunking.limits, Store.Database.api⟩
  enumerate source branch :=
    Source.Access.snapshot ⟨config.source, s.tree, s.workingDirectory, s.clone⟩ source branch
      .builtin
  now := s.now

/-- The observer that answers nothing. -/
def silent : Scheduler.State.Observer Store.Database := fun _ _ => []

/-- Reports a task that has ended and keeps the index. -/
def outcomeOfTask (format : Format) (quiet : Bool) (path : String) (index : Store.Database)
    (t : CodeIndex.Task) : Outcome :=
  let progress := if quiet || format = .json then [] else [progressLine t]
  let failure : Option Failure :=
    if t.status = .failed then
      some (.fault (.source (.reported (t.error.getD "ingestion failed"))))
    else none
  { output := task format t
    messages := progress ++ (failure.map Outcome.errorLine).toList
    exitCode := (failure.map Failure.exitCode).getD 0
    index := some (path, index) }

/-- Ingests a source: one task is submitted, and everything runs until it has ended. -/
def runIngest (s : Session) (config : Config) (format : Format) (source : String)
    (branch index : Option String) (quiet : Bool) : Except Failure Outcome := do
  let path ← indexPath s index
  let table ← (Session.rules config).mapError .fault
  let S := scheduling s config table
  let submitted :=
    Scheduler.State.perform S (.start config.pipeline .empty []) (.submit source branch)
  match submitted.reply? 0 with
  | some (.fault cause) => throw (.fault cause)
  | _ =>
    let settled := submitted.settle S silent
    match settled.shared.registry.get (Scheduler.idOf 0) with
    | .error cause => throw (.fault cause)
    | .ok t => return outcomeOfTask format quiet path settled.shared.desk.store t

/-! ### Commands -/

/-- What comes of a command in a session with a configuration. -/
def perform (s : Session) (config : Config) (i : Invocation) : Except Failure Outcome :=
  match i.action with
  | .languages => .ok (runLanguages s i.format)
  | .classify files => runClassify s config i.format files
  | .chunks file maxTokens content => runChunks s config i.format file maxTokens content
  | .graph file => runGraph s config i.format file
  | .ingest source branch index quiet => runIngest s config i.format source branch index quiet

/-- What comes of a command in a session. -/
def run (s : Session) (i : Invocation) : Outcome :=
  match s.config with
  | .error cause => .ofFailure (.fault cause)
  | .ok config =>
    match perform s config i with
    | .ok outcome => outcome
    | .error failure => .ofFailure failure

/-- What comes of a command line in a session. -/
def respond (s : Session) : Except UsageFault Request → Outcome
  | .error cause => ⟨"", [cause.report], 2, none⟩
  | .ok .version => .printing versionLine []
  | .ok (.help verb) => .printing (helpText verb) []
  | .ok (.run i) => run s i

end CodeIndex.Command
