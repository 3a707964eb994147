import CodeIndex.Command.Invocation
import CodeIndex.Config.Reader
import CodeIndex.FileTree.Resolve
import CodeIndex.Ingest.Processor
import CodeIndex.Source.Provider
/-!
# Sessions

What a command is run in: the files that it can see, the environment, and the parsers and the access
to remote repositories that it is given. A command first reads the configuration of its user.
-/

namespace CodeIndex.Command

/-- What a command is run in. -/
structure Session where
  tree : Directory
  /-- Where paths that are not absolute begin; an absolute path without links. -/
  workingDirectory : String
  environment : Config.Environment
  /-- The parser of a built-in language. -/
  grammar : String → Language.Parser
  /-- Clones a remote repository at a branch, if one is asked for, and lists its files. -/
  clone : String → Option String → Except Fault Source.Snapshot
  /-- The instant that records carry. -/
  now : Time.Timestamp

/-- Why a command fails. -/
inductive Failure where
  | fault (cause : Fault)
  /-- Nothing stands at the path that the user gave. -/
  | cannotAccess (path : String) (cause : IoFault)
  | cannotRead (path : String) (cause : IoFault)
  deriving DecidableEq, Repr

namespace Failure

/-- The wording of a failure, with all that lies behind it. -/
def message : Failure → String
  | fault cause => String.intercalate ": " (cause.message :: cause.causes)
  | cannotAccess path cause => "Cannot access " ++ path ++ ": " ++ cause.message
  | cannotRead path cause => "Cannot read " ++ path ++ ": " ++ cause.message

/-- The exit status of a failure. -/
def exitCode : Failure → Nat
  | fault cause => cause.exitCode
  | cannotAccess _ _ | cannotRead _ _ => 1

end Failure

namespace Session

/-- The path without links that a path leads to. -/
def locate (s : Session) (path : String) : Except IoFault String :=
  match s.tree.resolveAt s.workingDirectory path with
  | .ok (place, _) => .ok (Directory.pathOf place)
  | .error cause => .error cause

/-- The configuration of the user. -/
def config (s : Session) : Except Fault Config :=
  match s.locate s.environment.configFile with
  | .error _ => Config.load s.environment none
  | .ok path =>
    match s.tree.contentOf path with
    | .ok content => Config.load s.environment (some content)
    | .error cause => .error (.io cause)

/-- The classification rules of a configuration. -/
def rules (config : Config) : Except Fault Classifier.Table :=
  match Classifier.Table.ofRules config.rules with
  | .ok table => .ok table
  | .error cause => .error cause.toFault

/-- The built-in languages. -/
def languages (s : Session) : Language.Registry := .builtin s.grammar

/-! ### Single files -/

/-- A file that is to be shown, and what comes of parsing it. -/
structure Opened where
  resource : Resource
  text : String
  parsed : Parsed

/-- The classification of a file by its absolute path and its content. -/
def classify (s : Session) (table : Classifier.Table) (path : String) (content : List UInt8) :
    Classification :=
  table.classify (Path.forClassification (some s.workingDirectory) path) content

/-- Opens a file as ingesting its directory would. -/
def openFile (s : Session) (config : Config) (path : String) : Except Failure Opened := do
  let absolute ← (s.locate path).mapError (.cannotAccess path)
  let content ← (s.tree.contentOf absolute).mapError (.cannotRead absolute)
  let table ← (rules config).mapError .fault
  let language := (s.languages.languageForPath? absolute).getD unknownLanguage
  let parser ← (s.languages.parser? language).mapError .fault
  let resource := Resource.ofPath ((Path.parent? absolute).getD "")
    ((Path.fileName? absolute).getD "") (s.classify table absolute content) language s.now
  let text := Text.decodeLossy content
  return ⟨resource.withContent content, text, Ingest.parse parser text⟩

end Session

end CodeIndex.Command
