import CodeIndex.Imports.Ecmascript
import CodeIndex.Imports.Go
import CodeIndex.Imports.Python
import CodeIndex.Imports.UseTree
/-!
# Reading imports

The imports of one node, in the style of the tree's language. A node whose text is unusable gives
fewer imports but never an error.
-/

namespace CodeIndex.Imports

open CodeIndex.Syntax

/-- The imports of an import node. -/
def read (t : Tree) (source : String) (id : Nat) : List Import :=
  match t.profile.importStyle with
  | .rust => readUse t source id
  | .python => readPython t source id
  | .ecmascript => readEcmascript t source id
  | .go => readGo t source id

end CodeIndex.Imports
