import CodeIndex.Identity
import CodeIndex.Time.Timestamp
/-!
# Resources

A resource is one file of a repository: where it is, what kind of file it is, what became of it, and
the diagnostics that its processing left. Its identity depends on the repository and the path alone,
so a file that is read again is the same resource.
-/

namespace CodeIndex

/-- What kind of document a file is. -/
inductive Classification where
  | theory
  | practice
  | governance
  deriving DecidableEq, Repr, Inhabited

namespace Classification

/-- The name of a classification in records. -/
def name : Classification → String
  | theory => "THEORY"
  | practice => "PRACTICE"
  | governance => "GOVERNANCE"

/-- Every classification. -/
def all : List Classification := [theory, practice, governance]

/-- The classification with a name. -/
def ofName? (s : String) : Option Classification :=
  all.find? fun c => c.name == s

end Classification

/-- What became of a file. -/
inductive ResourceStatus where
  | pending
  | completed
  | failed
  deriving DecidableEq, Repr, Inhabited

namespace ResourceStatus

/-- The name of a status in records. -/
def name : ResourceStatus → String
  | pending => "PENDING"
  | completed => "COMPLETED"
  | failed => "FAILED"

/-- Every status. -/
def all : List ResourceStatus := [pending, completed, failed]

/-- The status with a name. -/
def ofName? (s : String) : Option ResourceStatus :=
  all.find? fun c => c.name == s

end ResourceStatus

/-- The language of files that no registered parser claims. -/
def unknownLanguage : String := "unknown"

/-- One file of a repository. -/
structure Resource where
  id : String
  relativePath : String
  repositoryRoot : String
  commitHash : Option String
  branch : Option String
  classification : Classification
  language : String
  status : ResourceStatus
  contentHash : String
  sizeBytes : Nat
  warnings : List String
  ingestedAt : Time.Timestamp
  deriving DecidableEq, Repr

namespace Resource

/-- A file that was found and classified but not read. -/
def ofPath (root path : String) (classification : Classification) (language : String)
    (now : Time.Timestamp) : Resource where
  id := Identity.ofResource root path
  relativePath := path
  repositoryRoot := root
  commitHash := none
  branch := none
  classification := classification
  language := language
  status := .pending
  contentHash := ""
  sizeBytes := 0
  warnings := []
  ingestedAt := now

/-- The resource at a revision. -/
def atRevision (r : Resource) (commitHash branch : Option String) : Resource :=
  { r with commitHash := commitHash, branch := branch }

/-- The resource with the hash and the size of its content. -/
def withContent (r : Resource) (bytes : List UInt8) : Resource :=
  { r with contentHash := Identity.fingerprint bytes, sizeBytes := bytes.length }

/-- The resource with further warnings behind those it has. -/
def addWarnings (r : Resource) (warnings : List String) : Resource :=
  { r with warnings := r.warnings ++ warnings }

end Resource

end CodeIndex
