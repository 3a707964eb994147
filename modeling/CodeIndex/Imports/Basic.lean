import CodeIndex.Syntax.Tree
import CodeIndex.Text.Space
import CodeIndex.Text.Split
/-!
# Imports

What one import names: a module or path, the local names it binds, and whether it takes in
everything.
-/

namespace CodeIndex

/-- A local name and what it stands for. -/
structure Binding where
  localName : String
  qualified : String
  deriving DecidableEq, Repr

/-- One imported module or path. -/
structure Import where
  modulePath : String
  line : Nat
  /-- The import takes in every name of the module. -/
  wildcard : Bool
  bindings : List Binding
  deriving DecidableEq, Repr

namespace Import

/-- An import that binds some names and is not a wildcard. -/
def binding (modulePath : String) (line : Nat) (bindings : List Binding) : Import :=
  ⟨modulePath, line, false, bindings⟩

/-- A wildcard import. -/
def all (modulePath : String) (line : Nat) : Import :=
  ⟨modulePath, line, true, []⟩

end Import

namespace Imports

/-- The text of a string literal: without white space at its edges and without its quotes, which may
be double, single or backward. -/
def unquote (text : String) : String :=
  let cs := Text.trimChars text.toList
  let inner := ['"', '\'', '\x60'].findSome? fun quote => Text.between? quote cs
  String.ofList (inner.getD cs)

end Imports

end CodeIndex
