import CodeIndex.Syntax.Tree
import CodeIndex.Text.Space
/-!
# Names of definitions

A definition is named by the first of the profile's name fields that it has. Type parameters are no
part of the name: it ends at the first angle bracket.
-/

namespace CodeIndex.Syntax.Tree

/-- What is left of the text of a name: no type parameters, no white space at the edges. -/
def bareName (text : String) : String :=
  let cs := (Text.trimChars text.toList).takeWhile (· != '<')
  String.ofList (Text.trimChars cs)

/-- The name of a definition, if it has one that is not empty. -/
def name? (t : Tree) (id : Nat) (source : String) : Option String := do
  let field ← t.profile.nameFields.findSome? fun field => t.childByField? id field
  let name := bareName (← t.text? field source)
  if name.isEmpty then none else some name

end CodeIndex.Syntax.Tree
