import CodeIndex.Command.Invocation
/-!
# Switches

The options of the program: how each is written, what it is for and which command takes it. Some are
common to all commands and may stand in front of the command as well as behind it.
-/

namespace CodeIndex.Command

/-- The options. -/
inductive Switch where
  | format
  | verbose
  | branch
  | index
  | quiet
  | maxTokens
  | content
  | help
  | version
  deriving DecidableEq, Repr

namespace Switch

/-- The name behind two dashes. -/
def long : Switch → String
  | format => "format"
  | verbose => "verbose"
  | branch => "branch"
  | index => "db"
  | quiet => "quiet"
  | maxTokens => "max-tokens"
  | content => "content"
  | help => "help"
  | version => "version"

/-- The letter behind one dash. -/
def letter? : Switch → Option Char
  | verbose => some 'v'
  | branch => some 'b'
  | quiet => some 'q'
  | help => some 'h'
  | version => some 'V'
  | _ => none

/-- What its value is called, if it takes one. -/
def value? : Switch → Option String
  | format => some "FORMAT"
  | branch => some "BRANCH"
  | index => some "DB"
  | maxTokens => some "MAX_TOKENS"
  | _ => none

/-- What an option is for. -/
def about : Switch → String
  | format => "Output format [default: cli] [possible values: cli, json]"
  | verbose => "Verbose output"
  | branch => "Branch to clone or record"
  | index => "Database file"
  | quiet => "Do not draw progress on stderr"
  | maxTokens => "Override the chunk token budget"
  | content => "Print chunk contents"
  | help => "Print help"
  | version => "Print version"

/-- How an option is written in full. -/
def text (s : Switch) : String :=
  "--" ++ s.long ++
    match s.value? with
    | some value => " <" ++ value ++ ">"
    | none => ""

/-- The options in front of a command. -/
def ofProgram : List Switch := [format, verbose, help, version]

end Switch

/-- The options behind a command. -/
def Verb.switches (v : Verb) : List Switch :=
  let own : List Switch :=
    match v with
    | ingest => [.branch, .index, .quiet]
    | chunks => [.maxTokens, .content]
    | _ => []
  own ++ [.format, .verbose, .help]

/-- What else stands behind a command: what it is called and what it is, if anything may. -/
def Verb.operand? : Verb → Option (String × String)
  | ingest => some ("SOURCE", "Directory path or repository URL")
  | chunks | graph => some ("FILE", "Source file")
  | classify => some ("FILES", "Files to classify")
  | languages => none

/-- How an operand of a command is written in a usage line. -/
def Verb.operandText (v : Verb) : String :=
  match v.operand? with
  | some (name, _) => "<" ++ name ++ ">" ++ if v = classify then "..." else ""
  | none => ""

end CodeIndex.Command
