import CodeIndex.Text.Alphanumeric
import CodeIndex.Text.Split
/-!
# Callees

What a call calls, as it is written: a plain name, or a receiver and the member of it. The last
separator counts, which is a dot or a double colon.
-/

namespace CodeIndex.Graph

open CodeIndex.Text

/-- What stands in front of the dot or double colon that begins last, and behind it. -/
def cutChars? (cs : List Char) : Option (List Char × List Char) :=
  match splitLast? ['.'] cs, splitLast? [':', ':'] cs with
  | some dot, some path => if dot.1.length > path.1.length then some dot else some path
  | some dot, none => some dot
  | none, path => path

/-- Receiver and member of some characters; `none` without a separator, and when either part is
empty. -/
def splitChars? (cs : List Char) : Option (List Char × List Char) :=
  (cutChars? cs).filter fun (receiver, member) => !receiver.isEmpty && !member.isEmpty

/-- Receiver and member of a callee, if it is no plain name. -/
def splitCallee? (callee : String) : Option (String × String) :=
  (splitChars? callee.toList).map fun (receiver, member) =>
    (String.ofList receiver, String.ofList member)

/-- The character can stand in an identifier. -/
def isIdentifierChar (c : Char) : Bool :=
  isAlphanumeric c || c == '_' || c == '$'

/-- The identifier that a receiver begins with. -/
def receiverRoot (receiver : String) : String :=
  String.ofList (receiver.toList.takeWhile isIdentifierChar)

end CodeIndex.Graph
