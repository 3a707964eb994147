import CodeIndex.Fault
/-!
# Snapshots

What a source of files gives to a task: the files it found, in order, and the revision they are at.
Each file comes with what reading it gives, its content or the refusal of the file system.
-/

namespace CodeIndex.Source

/-- One file that was found. -/
structure File where
  /-- The path below the root, with slashes. -/
  path : String
  content : Except IoFault (List UInt8)

/-- The files of a source at one revision. -/
structure Snapshot where
  repositoryRoot : String
  commitHash : Option String
  branch : Option String
  files : List File

end CodeIndex.Source
