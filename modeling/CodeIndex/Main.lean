import CodeIndex.Command.Outcome
import CodeIndex.Store.Export
import Std.Time.DateTime
/-!
# The program

The outer layer: it reads the files that a command looks at into a tree, runs the command, prints
what comes of it and keeps the index. It decides nothing else.
-/

namespace CodeIndex.Program

/-! ### Reading files -/

/-- The path without links that a path leads to, if anything stands there. -/
def realPath? (path : String) : IO (Option String) := do
  try
    return some (← IO.FS.realPath path).toString
  catch _ => return none

/-- What stands at a path without links; a file that cannot be read counts as empty. -/
partial def load (path : String) : IO Node := do
  let place ← IO.FS.realPath path
  if ← place.isDir then
    let mut entries := Directory.empty
    for entry in ← place.readDir do
      let inner := entry.path.toString
      match ← realPath? inner with
      | none => pure ()
      | some target =>
        let node ← if target == inner then load inner else pure (Node.link target)
        entries := Directory.cons entry.fileName node entries
    return .directory entries
  else
    try
      return .file (← IO.FS.readBinFile path).toList
    catch _ => return .file []

/-- The tree with what stands at the end of an absolute path, and every link on the way to it. -/
def loadInto (tree : Directory) (path : String) : IO Directory := do
  let mut tree := tree
  let mut place : List String := []
  for step in (Path.components path).tail do
    if step == ".." then
      place := place.dropLast
    else
      let inner := place ++ [step]
      match ← realPath? (Directory.pathOf inner) with
      | none => return tree
      | some target =>
        if target != Directory.pathOf inner then
          tree := tree.insert inner (.link target)
        place := (Path.components target).tail
        if (tree.at? place).isNone && (← (← IO.FS.realPath target).isDir) then
          tree := tree.insert place (.directory .empty)
  return tree.insert place (← load (Directory.pathOf place))

/-! ### Sessions -/

/-- The environment of the user. -/
def environment : IO Config.Environment := do
  let values ← Config.Environment.names.filterMapM fun name => do
    return (← IO.getEnv name).map (name, ·)
  return ⟨fun name => values.lookup name, none⟩

/-- The current instant. -/
def now : IO Time.Timestamp := do
  let nanos := (← Std.Time.Timestamp.now).toNanosecondsSinceUnixEpoch.val
  return ⟨nanos / 1000000000, (nanos % 1000000000).toNat⟩

/-- What a command that looks at some paths is run in. No grammars and no access to remote
repositories are built in. -/
def session (paths : List String) : IO Command.Session := do
  let environment ← environment
  let workingDirectory := (← IO.FS.realPath ".").toString
  let mut tree := Directory.empty
  for path in environment.configFile :: paths do
    tree ← loadInto tree (Path.join workingDirectory path)
  return {
    tree := tree
    workingDirectory := workingDirectory
    environment := environment
    grammar := fun language _ => .error (.parse ("no grammar for " ++ language))
    clone := fun url _ => .error (.clone url "remote repositories cannot be reached")
    now := ← now }

/-! ### Running -/

/-- Keeps an index at a path. -/
def keep (path : String) (index : Store.Database) : IO Unit := do
  match Path.parent? path with
  | some directory => if directory != "" then IO.FS.createDirAll directory
  | none => pure ()
  IO.FS.writeFile path (index.toJson.pretty ++ "\n")

end CodeIndex.Program

/-- Runs what the command line asks for. -/
def main (words : List String) : IO UInt32 := do
  let request := CodeIndex.Command.Request.ofArguments words
  let session ← CodeIndex.Program.session (CodeIndex.Command.Request.paths request)
  let outcome := CodeIndex.Command.respond session request
  IO.print outcome.output
  for line in outcome.messages do
    IO.eprintln line
  match outcome.index with
  | some (path, index) => CodeIndex.Program.keep path index
  | none => pure ()
  return outcome.exitCode.toUInt32
