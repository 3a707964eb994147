import CodeIndex.AcademicWriting
import CodeIndex.Classifier.Rule
import CodeIndex.Glob
import CodeIndex.Path
/-!
# Classification of files

A file is of the kind that the first rule in table order gives it; a file that no rule concerns is
practice. The globs of a table are read once, when the table is built, so a bad pattern is reported
then and never while files are classified.

A rule goes by its test of the path (`Test.accepts`). Only an academic rule whose test succeeds
looks at the content, and only the first such rule has to: the later ones know what it found.
-/

namespace CodeIndex.Classifier

open CodeIndex.Text

/-! ### Paths as rules see them -/

/-- What the rules look at: the path with slashes, its name and its extension in lower case. -/
structure Subject where
  path : String
  fileName : String
  extension : Option String
  deriving DecidableEq, Repr

/-- The path of a file as rules see it. -/
def Subject.ofPath (path : String) : Subject :=
  let path := Path.withSlashes path
  { path := path
    fileName := (Path.fileName? path).getD ""
    extension := (Path.extension? path).map lowercase }

/-- How a rule tells the files that it concerns by their paths. -/
inductive Test where
  | fileName (glob : Glob)
  | path (glob : Glob)
  | extensions (extensions : List String)
  deriving DecidableEq, Repr

/-- The test of the path succeeds. -/
def Test.accepts (s : Subject) : Test → Bool
  | fileName glob => glob.accepts s.fileName
  | path glob => glob.accepts s.path
  | extensions exts => s.extension.any fun ext => exts.contains ext

/-- An extension as it is compared: without leading dots, in lower case. -/
def comparedExtension (extension : String) : String :=
  lowercase (String.ofList (extension.toList.dropWhile (· == '.')))

/-- What a rule goes by: the name, else the path, else the extensions. -/
def Rule.test (rule : Rule) : Except GlobFault Test :=
  match rule.fileName, rule.path with
  | some pattern, _ => (Glob.read pattern).map .fileName
  | none, some pattern => (Glob.read pattern).map .path
  | none, none => .ok (.extensions (rule.extensions.map comparedExtension))

/-! ### Tables -/

/-- A rule whose test has been read. -/
structure Entry where
  test : Test
  classification : Classification
  academic : Bool
  deriving DecidableEq, Repr

/-- The entry of a rule. -/
def Rule.entry (rule : Rule) : Except GlobFault Entry :=
  rule.test.map fun test =>
    { test := test, classification := rule.classification, academic := rule.academic }

/-- A table of rules, ready for use. -/
structure Table where
  entries : List Entry
  deriving DecidableEq, Repr

namespace Table

/-- The kind of a file that no rule concerns. -/
def otherwise : Classification := .practice

/-- The table of some rules; the first bad pattern is reported. -/
def ofRules (rules : List Rule) : Except GlobFault Table :=
  (rules.mapM Rule.entry).map Table.mk

/-- The built-in table. -/
def builtin : Table where
  entries := Rule.builtins.filterMap fun rule => rule.entry.toOption

/-- The kind of a file by the entries that are left. `verdict` is what an earlier academic entry
found the content to be, if one had to look at it. -/
def kindAmong (s : Subject) (content : List UInt8) (verdict : Option Bool) :
    List Entry → Classification
  | [] => otherwise
  | e :: rest =>
    if !e.test.accepts s then kindAmong s content verdict rest
    else if !e.academic then e.classification
    else
      let isAcademic := verdict.getD (AcademicWriting.isAcademicFile content)
      if isAcademic then e.classification else kindAmong s content (some isAcademic) rest

/-- The kind of the file at a path. -/
def classify (t : Table) (path : String) (content : List UInt8) : Classification :=
  kindAmong (.ofPath path) content none t.entries

end Table

end CodeIndex.Classifier
