import CodeIndex.Command.Switch
import CodeIndex.Text.Split
import CodeIndex.Yaml.Reads
/-!
# Arguments

From the words of a command line to a request. The options in front of the command are read first,
then the command, then its options and operands in any order. An option is given once at most on
each side of the command, and of two the one behind the command counts. Behind two dashes there are
only operands. Asking for help or the version ends the reading at once.
-/

namespace CodeIndex.Command

/-! ### Faults -/

/-- Why a command line is refused. -/
inductive UsageFault where
  | unexpected (word : String)
  | valueMissing (switch : Switch)
  | valueNotTaken (switch : Switch) (value : String)
  | repeated (switch : Switch)
  | badValue (switch : Switch) (value : String)
  | emptyOperand (name : String)
  | operandMissing (name : String)
  | noCommand
  | unknownCommand (name : String)
  deriving DecidableEq, Repr

/-- The wording of a refusal. -/
def UsageFault.message : UsageFault → String
  | unexpected word => "unexpected argument '" ++ word ++ "' found"
  | valueMissing switch => "a value is required for '" ++ switch.text ++ "' but none was supplied"
  | valueNotTaken switch value =>
    "unexpected value '" ++ value ++ "' for '--" ++ switch.long ++ "' found; no more were expected"
  | repeated switch => "the argument '" ++ switch.text ++ "' cannot be used multiple times"
  | badValue switch value => "invalid value '" ++ value ++ "' for '" ++ switch.text ++ "'"
  | emptyOperand name => "a value is required for '" ++ name ++ "' but none was supplied"
  | operandMissing name =>
    "the following required arguments were not provided:\n  " ++ name
  | noCommand => "'codeintel' requires a subcommand but one was not provided"
  | unknownCommand name => "unrecognized subcommand '" ++ name ++ "'"

/-- Why the reading ends before the last word. -/
inductive Stop where
  | fault (cause : UsageFault)
  | request (request : Request)

/-! ### One word -/

/-- The options that one word gives, each with its value. -/
abbrev Given := List (Switch × String)

/-- A word can be the value of the option in front of it. -/
def isValue (word : String) : Bool :=
  word == "-" || word.toList.head? != some '-'

/-- Takes the next word as the value of an option. -/
def takeValue (s : Switch) (next : List String) : Except UsageFault (Given × List String) :=
  match next with
  | word :: next => if isValue word then .ok ([(s, word)], next) else .error (.valueMissing s)
  | [] => .error (.valueMissing s)

/-- Reads an option behind two dashes, with its value behind a sign or in the next word. -/
def readLong (known : List Switch) (name : List Char) (next : List String) :
    Except UsageFault (Given × List String) :=
  let (front, value) :=
    match Text.splitFirst? '=' name with
    | some (front, value) => (front, some (String.ofList value))
    | none => (name, none)
  match known.find? fun s => s.long.toList == front with
  | none => .error (.unexpected ("--" ++ String.ofList front))
  | some s =>
    match s.value?, value with
    | some _, some value => .ok ([(s, value)], next)
    | some _, none => takeValue s next
    | none, some value => .error (.valueNotTaken s value)
    | none, none => .ok ([(s, "")], next)

/-- Reads the letters behind one dash. What follows the letter of an option with a value is its
value. -/
def readLetters (known : List Switch) (letters : List Char) (next : List String) :
    Except UsageFault (Given × List String) :=
  match letters with
  | [] => .ok ([], next)
  | letter :: letters =>
    match known.find? fun s => s.letter? == some letter with
    | none => .error (.unexpected ("-" ++ String.ofList [letter]))
    | some s =>
      match s.value?, letters with
      | none, letters => do
        let (given, next) ← readLetters known letters next
        return ((s, "") :: given, next)
      | some _, [] => takeValue s next
      | some _, '=' :: value => .ok ([(s, String.ofList value)], next)
      | some _, value => .ok ([(s, String.ofList value)], next)

/-! ### Values -/

/-- The format that a value names. -/
def formatOf? (value : String) : Option Report.Format :=
  match value with
  | "cli" => some .terminal
  | "json" => some .json
  | _ => none

/-- The number that a value writes: digits, perhaps behind a plus sign. -/
def numberOf? (value : String) : Option Nat :=
  Yaml.Reads.numberIn? 10 (Yaml.Reads.withoutPlus value.toList)

/-- The option takes the value. -/
def Switch.accepts (s : Switch) (value : String) : Bool :=
  match s with
  | .format => (formatOf? value).isSome
  | .maxTokens => (numberOf? value).isSome
  | .index => value != ""
  | _ => true

/-- Adds the options of one word to those given before on the same side of the command. -/
def addGiven (verb : Option Verb) (given : Given) : Given → Except Stop Given
  | [] => .ok given
  | (s, value) :: rest =>
    if s = .help then .error (.request (.help verb))
    else if s = .version then .error (.request .version)
    else if given.any fun g => g.1 == s then .error (.fault (.repeated s))
    else if s.accepts value then addGiven verb (given ++ [(s, value)]) rest
    else .error (.fault (.badValue s value))

/-! ### Both sides of the command -/

/-- The reading so far on one side of the command. -/
structure Side where
  given : Given
  operands : List String

/-- Reads a word that begins with a dash. -/
def readOption (verb : Option Verb) (known : List Switch) (given : Given) (word : List Char)
    (next : List String) : Except Stop (Given × List String) :=
  let read :=
    match word with
    | '-' :: name => readLong known name next
    | letters => readLetters known letters next
  match read with
  | .error cause => .error (.fault cause)
  | .ok (more, next) =>
    match addGiven verb given more with
    | .ok given => .ok (given, next)
    | .error stop => .error stop

/-- Reads the options in front of the command, at most `turns` of them. What is left begins with the
command. -/
def readFront (turns : Nat) (given : Given) (words : List String) :
    Except Stop (Given × List String) :=
  match turns, words with
  | turns + 1, word :: next =>
    match word.toList with
    | '-' :: rest =>
      if rest.isEmpty then .error (.fault (.unknownCommand word))
      else if rest = ['-'] then
        .error (.fault (match next with | [] => .noCommand | word :: _ => .unexpected word))
      else
        match readOption none Switch.ofProgram given rest next with
        | .ok (given, next) => readFront turns given next
        | .error stop => .error stop
    | _ => .ok (given, words)
  | _, _ => .ok (given, words)

/-- Adds an operand of a command. -/
def addOperand (v : Verb) (side : Side) (word : String) : Except Stop Side :=
  let room : Bool :=
    match v with
    | .classify => true
    | .languages => false
    | _ => side.operands.isEmpty
  if !room then .error (.fault (.unexpected word))
  else if v ≠ .ingest ∧ word = "" then .error (.fault (.emptyOperand v.operandText))
  else .ok { side with operands := side.operands ++ [word] }

/-- Reads the options and operands behind the command, at most `turns` words with their values. -/
def readBack (v : Verb) (turns : Nat) (side : Side) (words : List String) : Except Stop Side :=
  match turns, words with
  | turns + 1, word :: next =>
    match word.toList with
    | '-' :: c :: rest =>
      if c = '-' ∧ rest = [] then next.foldlM (addOperand v) side
      else
        match readOption (some v) v.switches side.given (c :: rest) next with
        | .ok (given, next) => readBack v turns { side with given := given } next
        | .error stop => .error stop
    | _ =>
      match addOperand v side word with
      | .ok side => readBack v turns side next
      | .error stop => .error stop
  | _, _ => .ok side

/-! ### Requests -/

/-- The action of a command with its options and operands. -/
def actionOf (v : Verb) (given : Given) (operands : List String) : Except Stop Action :=
  let value (s : Switch) : Option String := given.lookup s
  let missing : Except Stop Action := .error (.fault (.operandMissing v.operandText))
  match v, operands with
  | .languages, _ => .ok .languages
  | .ingest, source :: _ =>
    .ok (.ingest source (value .branch) (value .index) (value .quiet).isSome)
  | .chunks, file :: _ =>
    .ok (.chunks file ((value .maxTokens).bind numberOf?) (value .content).isSome)
  | .graph, file :: _ => .ok (.graph file)
  | .classify, file :: files => .ok (.classify (file :: files))
  | _, [] => missing

/-- Reads what follows the word for help: the command that it is asked for, if any. -/
def readHelp (words : List String) : Except Stop Request :=
  match words with
  | [] => .ok (.help none)
  | word :: _ =>
    match Verb.ofName? word with
    | some v => .ok (.help v)
    | none => .error (.fault (.unknownCommand word))

/-- Reads a command line. -/
def readWords (words : List String) : Except Stop Request := do
  let (front, rest) ← readFront words.length [] words
  match rest with
  | [] => throw (.fault .noCommand)
  | "help" :: rest => readHelp rest
  | name :: rest =>
    match Verb.ofName? name with
    | none => throw (.fault (.unknownCommand name))
    | some v =>
      let side ← readBack v rest.length ⟨[], []⟩ rest
      let action ← actionOf v side.given side.operands
      let given := side.given ++ front
      return .run
        { action := action
          format := ((given.lookup .format).bind formatOf?).getD .terminal
          verbose := (given.lookup .verbose).isSome }

/-- The request of a command line. -/
def Request.ofArguments (words : List String) : Except UsageFault Request :=
  match readWords words with
  | .ok request => .ok request
  | .error (.request request) => .ok request
  | .error (.fault cause) => .error cause

/-- The paths of the files and directories that a request looks at. -/
def Request.paths : Except UsageFault Request → List String
  | .ok (.run i) => i.action.paths
  | _ => []

end CodeIndex.Command
