import CodeIndex.Imports.Basic
/-!
# Go imports

A package is bound to the last segment of its path, or to the name in front of it. A dot in front
takes in every name, and a blank identifier binds nothing.
-/

namespace CodeIndex.Imports

open CodeIndex.Syntax

/-- The last segment of a path. -/
def lastPathSegment (path : String) : String :=
  String.ofList (Text.afterLast ['/'] path.toList)

/-- The import of an import specification; none when the text of its path is unusable. -/
def readGo (t : Tree) (source : String) (id : Nat) : List Import :=
  match (t.childByField? id "path").bind fun n => t.text? n source with
  | none => []
  | some quoted =>
    let path := unquote quoted
    let line := (t.node id).startLine
    match t.childByField? id "name" with
    | none => [.binding path line [⟨lastPathSegment path, path⟩]]
    | some name =>
      match t.kind name with
      | "dot" => [.all path line]
      | "blank_identifier" => [.binding path line []]
      | _ => [.binding path line [⟨t.text name source, path⟩]]

end CodeIndex.Imports
