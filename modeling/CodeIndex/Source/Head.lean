import CodeIndex.FileTree.Resolve
import CodeIndex.Path
import CodeIndex.Text.Space
/-!
# The head of a checkout

The commit and the branch that a checkout is at, read from the files that version control keeps.
The head either names a reference, whose commit stands in a file of its own or in a packed list, or
it is a commit itself. A checkout that is linked to another keeps a file that points to the
directory of its head.
-/

namespace CodeIndex.Source

open CodeIndex.Text

/-- The commit and the branch of a checkout, as far as they are known. -/
structure Head where
  commitHash : Option String
  branch : Option String
  deriving DecidableEq, Repr

/-- The text behind a front, if the text begins with it. -/
def textBehind? (front s : String) : Option String :=
  (behind? front s.toList).map String.ofList

/-- The directory that holds the head of the checkout at `root`. -/
def headDirectory? (world : Directory) (root : String) : Option String :=
  let own := Path.join root ".git"
  if world.isDirectory own then some own
  else do
    let target ← textBehind? "gitdir:" (trim (← world.readText? own))
    return Path.join root (trim target)

/-- The commit that one line of the packed list gives for a reference. -/
def packedCommit? (reference : String) (line : List Char) : Option String :=
  if line.head? == some '#' || line.head? == some '^' then none
  else do
    let (hash, name) ← splitFirst? ' ' line
    if trim (String.ofList name) == reference then some (String.ofList hash) else none

/-- The commit of a reference: from its own file, else from the packed list. -/
def commitOf? (world : Directory) (directory reference : String) : Option String :=
  let loose := ((world.readText? (Path.join directory reference)).map trim).filter (· != "")
  loose.or do
    let packed ← world.readText? (Path.join directory "packed-refs")
    (splitChar '\n' packed.toList).findSome? (packedCommit? reference)

/-- The branch that a reference is for; any other reference stands for itself. -/
def branchOf (reference : String) : String :=
  (textBehind? "refs/heads/" reference).getD reference

/-- The head of the checkout at `root`. -/
def headOf (world : Directory) (root : String) : Head :=
  let head := do
    let directory ← headDirectory? world root
    return (directory, trim (← world.readText? (Path.join directory "HEAD")))
  match head with
  | none => ⟨none, none⟩
  | some (directory, text) =>
    match textBehind? "ref:" text with
    | some reference =>
      let reference := trim reference
      ⟨commitOf? world directory reference, some (branchOf reference)⟩
    | none => ⟨if text == "" then none else some text, none⟩

end CodeIndex.Source
