import CodeIndex.Json
import CodeIndex.Resource
/-!
# Classification rules

A rule says which files are of a kind. It goes by the file name, by the path or by the extension; a
rule that gives several of these goes by the first it gives. A rule marked academic concerns only
files that read like academic writing.

The built-in table is `Rule.builtins`.
-/

namespace CodeIndex.Classifier

/-- One rule as a user writes it. -/
structure Rule where
  /-- A glob for the file name. -/
  fileName : Option String := none
  /-- A glob for the path below the root of the repository. -/
  path : Option String := none
  extensions : List String := []
  classification : Classification
  academic : Bool := false
  deriving DecidableEq, Repr

namespace Rule

/-- The rule for files with a name. -/
def forFileName (pattern : String) (classification : Classification) : Rule where
  fileName := some pattern
  classification := classification

/-- The rule for files at a path. -/
def forPath (pattern : String) (classification : Classification) : Rule where
  path := some pattern
  classification := classification

/-- The rule for files with one of some extensions. -/
def forExtensions (extensions : List String) (classification : Classification) : Rule where
  extensions := extensions
  classification := classification

/-- The rule for academic files only. -/
def whenAcademic (rule : Rule) : Rule :=
  { rule with academic := true }

/-- The rule as a record; what it does not go by is left out. -/
def toJson (rule : Rule) : Json :=
  .obj <|
    (rule.fileName.map fun name => ("file_name", Json.str name)).toList ++
      (rule.path.map fun path => ("path", Json.str path)).toList ++
      (if rule.extensions.isEmpty then [] else [("extensions", Json.strs rule.extensions)]) ++
      [("classification", .str rule.classification.name), ("academic", .bool rule.academic)]

/-! ### The built-in table -/

/-- Names of files that say how a project is governed. -/
def governanceNames : List String :=
  ["LICENSE*", "LICENCE*", "COPYING*", "NOTICE*", "CODE_OF_CONDUCT*", "CONTRIBUTING*", "SECURITY*",
    "GOVERNANCE*", "CODEOWNERS", "MAINTAINERS*", "CHANGELOG*"]

/-- Extensions of papers and their bibliographies. -/
def paperExtensions : List String := ["tex", "bib", "ltx"]

/-- Extensions of code and of its settings. -/
def codeExtensions : List String :=
  ["rs", "py", "pyi", "js", "mjs", "cjs", "jsx", "ts", "mts", "cts", "tsx", "go", "java", "kt", "c",
    "h", "cc", "cpp", "hpp", "cs", "rb", "php", "swift", "scala", "sh", "sql", "toml", "yaml",
    "yml", "json"]

/-- Directories that hold papers. -/
def paperPaths : List String :=
  ["**/papers/**", "**/paper/**", "**/research/**", "**/rfcs/**"]

/-- Extensions of documents that may be papers. -/
def documentExtensions : List String := ["md", "markdown", "rst", "txt", "adoc", "org"]

/-- The built-in rules, first match first. -/
def builtins : List Rule :=
  governanceNames.map (forFileName · .governance) ++
    [forExtensions paperExtensions .theory, forExtensions codeExtensions .practice] ++
    paperPaths.map (forPath · .theory) ++ [(forExtensions documentExtensions .theory).whenAcademic]

end Rule

end CodeIndex.Classifier
