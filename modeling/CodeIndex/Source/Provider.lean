import CodeIndex.Source.Head
import CodeIndex.Source.Scan
import CodeIndex.Source.Snapshot
/-!
# Sources

A source is named by a reference: the address of a remote repository or the path of a directory. A
provider takes some references and lists the files behind them; of several providers the first that
takes a reference serves it.
-/

namespace CodeIndex.Source

/-! ### References -/

/-- What the addresses of remote repositories begin with. -/
def remoteFronts : List String :=
  ["http://", "https://", "ssh://", "git://", "git@", "file://"]

/-- The reference names a remote repository. -/
def isRemote (reference : String) : Bool :=
  remoteFronts.any fun front => front.toList.isPrefixOf reference.toList

/-- The kinds of providers. -/
inductive Provider where
  /-- Remote repositories, which are cloned first. -/
  | git
  /-- Directories. -/
  | local
  /-- Whichever of some providers takes the reference first. -/
  | repository (providers : List Provider)

namespace Provider

/-- The name of a kind of provider. -/
def name : Provider → String
  | git => "git"
  | «local» => "local"
  | repository _ => "repository"

/-- The provider for all references. -/
def builtin : Provider := repository [git, «local»]

mutual

/-- The provider takes a reference. -/
def accepts (reference : String) : Provider → Bool
  | git => isRemote reference
  | «local» => !isRemote reference
  | repository providers => anyAccepts reference providers

/-- One of the providers takes a reference. -/
def anyAccepts (reference : String) : List Provider → Bool
  | [] => false
  | provider :: providers => accepts reference provider || anyAccepts reference providers

end

end Provider

/-! ### Files behind references -/

/-- What providers find files with. -/
structure Access where
  options : Config.Source
  tree : Directory
  /-- Where paths that are not absolute begin. -/
  workingDirectory : String
  /-- Clones a remote repository at a branch, if one is asked for, and lists its files. -/
  clone : String → Option String → Except Fault Snapshot

namespace Access

/-- The files behind the path of a directory, at the head of its checkout. A branch that is asked
for is recorded, though the directory is taken as it is. -/
def directorySnapshot (a : Access) (reference : String) (branch : Option String) :
    Except SourceFault Snapshot :=
  match a.tree.resolveAt a.workingDirectory reference with
  | .error cause => .error (.cannotAccess reference cause)
  | .ok (place, .directory entries) =>
    let root := Directory.pathOf place
    let found := scanEntries a.options (layerIn a.tree place) entries
    let head := headOf a.tree root
    .ok
      { repositoryRoot := root
        commitHash := head.commitHash
        branch := branch.or head.branch
        files := found.map fun f => ⟨f.path, .ok f.content⟩ }
  | .ok (place, _) => .error (.notDirectory (Directory.pathOf place))

mutual

/-- The files that a provider finds behind a reference. -/
def snapshot (a : Access) (reference : String) (branch : Option String) :
    Provider → Except Fault Snapshot
  | .git => a.clone reference branch
  | .local => (a.directorySnapshot reference branch).mapError .source
  | .repository providers => a.firstSnapshot reference branch providers

/-- The files that the first provider to take a reference finds behind it. -/
def firstSnapshot (a : Access) (reference : String) (branch : Option String) :
    List Provider → Except Fault Snapshot
  | [] => .error (.source (.noProvider reference))
  | provider :: providers =>
    if provider.accepts reference then a.snapshot reference branch provider
    else a.firstSnapshot reference branch providers

end

end Access

end CodeIndex.Source
