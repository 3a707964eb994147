import CodeIndex.Report.Terminal
/-!
# Invocations

What a user can ask the program for. A command does one thing: it lists languages, classifies files,
shows the chunks or the relationships of one file, or ingests a source.
-/

namespace CodeIndex.Command

/-- The names of the commands. -/
inductive Verb where
  | ingest
  | chunks
  | graph
  | classify
  | languages
  deriving DecidableEq, Repr

namespace Verb

/-- The name of a command, as a user writes it. -/
def name : Verb → String
  | ingest => "ingest"
  | chunks => "chunks"
  | graph => "graph"
  | classify => "classify"
  | languages => "languages"

/-- What a command is for. -/
def about : Verb → String
  | ingest => "Ingest a local directory or git URL"
  | chunks => "Show the chunks of one file"
  | graph => "Show the graph triples of one file"
  | classify => "Classify files"
  | languages => "List registered languages"

/-- Every command. -/
def all : List Verb := [ingest, chunks, graph, classify, languages]

/-- The command with a name. -/
def ofName? (s : String) : Option Verb := all.find? fun v => v.name == s

end Verb

/-- A command with all that it is told. -/
inductive Action where
  /-- Ingest a source into an index file. -/
  | ingest (source : String) (branch index : Option String) (quiet : Bool)
  /-- Show the chunks of a file, perhaps with another budget and with their text. -/
  | chunks (file : String) (maxTokens : Option Nat) (content : Bool)
  | graph (file : String)
  | classify (files : List String)
  | languages
  deriving DecidableEq, Repr

/-- The paths of the files and directories that a command looks at. -/
def Action.paths : Action → List String
  | ingest source _ _ _ => [source]
  | chunks file _ _ => [file]
  | graph file => [file]
  | classify files => files
  | languages => []

/-- A command and how it reports. -/
structure Invocation where
  action : Action
  format : Report.Format
  verbose : Bool
  deriving DecidableEq, Repr

/-- What a user can ask for. -/
inductive Request where
  | run (invocation : Invocation)
  /-- Show how to use the program or one command. -/
  | help (verb : Option Verb)
  | version
  deriving DecidableEq, Repr

end CodeIndex.Command
