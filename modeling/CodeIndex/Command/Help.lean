import CodeIndex.Command.Arguments
/-!
# Help

What the program prints when it is asked how it is used, and when a command line is refused. All of
it is made from the tables of commands and options.
-/

namespace CodeIndex.Command

open Report

/-- The version of the program. -/
def versionLine : String := "codeintel 0.1.0\n"

/-- Rows of two columns, the first as wide as its widest text. -/
def columns (rows : List (String × String)) : String :=
  let width := rows.foldl (fun w row => max w row.1.length) 0
  String.join (rows.map fun (left, right) => "  " ++ padRight width left ++ "  " ++ right ++ "\n")

/-- An option in a list of options. -/
def switchRow (s : Switch) : String × String :=
  let letter :=
    match s.letter? with
    | some c => "-" ++ String.ofList [c] ++ ", "
    | none => "    "
  (letter ++ s.text, s.about)

/-- A list of options under its title. -/
def switchList (switches : List Switch) : String :=
  "Options:\n" ++ columns (switches.map switchRow)

/-- How the program is used. -/
def programHelp : String :=
  let verbs := Verb.all.map fun v => (v.name, v.about)
  "Ingest repositories into AST-aware chunks and a static code graph\n\n" ++
    "Usage: codeintel [OPTIONS] <COMMAND>\n\n" ++
    "Commands:\n" ++
    columns (verbs ++ [("help", "Print this message or the help of the given subcommand(s)")]) ++
    "\n" ++ switchList Switch.ofProgram

/-- How a command is used. -/
def Verb.help (v : Verb) : String :=
  let operand := v.operandText
  let arguments :=
    match v.operand? with
    | some (_, about) => "Arguments:\n" ++ columns [(operand, about)] ++ "\n"
    | none => ""
  v.about ++ "\n\nUsage: codeintel " ++ v.name ++ " [OPTIONS]" ++
    (if operand = "" then "" else " " ++ operand) ++ "\n\n" ++ arguments ++
    switchList v.switches

/-- What is printed for a request for help. -/
def helpText : Option Verb → String
  | none => programHelp
  | some v => v.help

/-- What is printed when a command line is refused. -/
def UsageFault.report (f : UsageFault) : String :=
  "error: " ++ f.message ++ "\n\nFor more information, try '--help'."

end CodeIndex.Command
