import CodeIndex.Imports.Basic
/-!
# JavaScript and TypeScript imports

A default import and a namespace import bind a local name to the module; a named import binds a
local name to one export of it. An import without a clause runs the module and binds nothing.
-/

namespace CodeIndex.Imports

open CodeIndex.Syntax

/-- A named import: the local name is the alias, if there is one. -/
def readSpecifier? (t : Tree) (source modulePath : String) (id : Nat) : Option Binding :=
  if t.kind id == "import_specifier" then
    (t.childByField? id "name").map fun n =>
      let name := t.text n source
      let localName := ((t.childByField? id "alias").map fun a => t.text a source).getD name
      ⟨localName, modulePath ++ "." ++ name⟩
  else
    none

/-- The names that one part of an import clause binds. -/
def readClausePart (t : Tree) (source modulePath : String) (id : Nat) : List Binding :=
  match t.kind id with
  | "identifier" => [⟨t.text id source, modulePath⟩]
  | "namespace_import" =>
    match t.childOfKind? id "identifier" with
    | none => []
    | some name => [⟨t.text name source, modulePath⟩]
  | "named_imports" => (t.children id).filterMap (readSpecifier? t source modulePath)
  | _ => []

/-- The import of an import statement; none when the text of its module is unusable. -/
def readEcmascript (t : Tree) (source : String) (id : Nat) : List Import :=
  match (t.childByField? id "source").bind fun n => t.text? n source with
  | none => []
  | some quoted =>
    let modulePath := unquote quoted
    let parts := match t.childOfKind? id "import_clause" with
      | none => []
      | some clause => t.children clause
    [.binding modulePath (t.node id).startLine
      (parts.flatMap (readClausePart t source modulePath))]

end CodeIndex.Imports
