import CodeIndex.Imports.Basic
/-!
# Python imports

A plain import binds the first component of a dotted module, or the alias to the whole module. A
from-import binds every name it lists to that name inside the module; a module that ends with a dot
is relative and takes no further dot.
-/

namespace CodeIndex.Imports

open CodeIndex.Syntax

/-- A name in an import with its alias, if it has one. -/
def splitAlias (t : Tree) (source : String) (id : Nat) : String × Option String :=
  if t.kind id == "aliased_import" then
    let name := (t.childByField? id "name").bind fun n => t.text? n source
    (name.getD "", (t.childByField? id "alias").bind fun n => t.text? n source)
  else
    (t.text id source, none)

/-- The first component of a dotted name. -/
def firstComponent (dotted : String) : String :=
  String.ofList (dotted.toList.takeWhile (· != '.'))

/-- What a local name stands for after an import of `modulePath`: itself when it is the module or
the module lies below it, the whole module otherwise. -/
def qualifiedModule (modulePath localName : String) : String :=
  if localName == modulePath || (localName.toList ++ ['.']).isPrefixOf modulePath.toList then
    localName
  else
    modulePath

/-- One module of a plain import. -/
def readModule (t : Tree) (source : String) (line id : Nat) : Import :=
  let (modulePath, alias?) := splitAlias t source id
  let localName := alias?.getD (firstComponent modulePath)
  .binding modulePath line [⟨localName, qualifiedModule modulePath localName⟩]

/-- A name inside a module. -/
def memberOf (modulePath name : String) : String :=
  if modulePath.toList.getLast? == some '.' then modulePath ++ name
  else modulePath ++ "." ++ name

/-- One name of a from-import. -/
def readMember (t : Tree) (source : String) (modulePath : String) (id : Nat) : Binding :=
  let (name, alias?) := splitAlias t source id
  ⟨alias?.getD name, memberOf modulePath name⟩

/-- The imports of a Python import statement. -/
def readPython (t : Tree) (source : String) (id : Nat) : List Import :=
  let line := (t.node id).startLine
  let names := t.childrenByField id "name"
  match t.kind id with
  | "import_statement" => names.map (readModule t source line)
  | "import_from_statement" =>
    match t.childByField? id "module_name" with
    | none => []
    | some module =>
      let modulePath := t.text module source
      [{ modulePath := modulePath
         line := line
         wildcard := (t.childOfKind? id "wildcard_import").isSome
         bindings := names.map (readMember t source modulePath) }]
  | _ => []

end CodeIndex.Imports
