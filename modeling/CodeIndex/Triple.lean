import CodeIndex.Identity
import CodeIndex.Number.Binary32
/-!
# Relationships

A triple says that a subject imports, defines or calls something, on which line, which symbol it
takes the target to be, and how sure it is of that.
-/

namespace CodeIndex

/-- The kinds of relationship. -/
inductive Predicate where
  | imports
  | defines
  | calls
  deriving DecidableEq, Repr, Inhabited

namespace Predicate

/-- The name of a predicate in records. -/
def name : Predicate → String
  | imports => "IMPORTS"
  | defines => "DEFINES"
  | calls => "CALLS"

/-- Every predicate. -/
def all : List Predicate := [imports, defines, calls]

/-- The predicate with a name. -/
def ofName? (s : String) : Option Predicate :=
  all.find? fun c => c.name == s

end Predicate

/-- One relationship found in a file. -/
structure Triple where
  resourceId : String
  subject : String
  predicate : Predicate
  object : String
  sourceFile : String
  targetSymbol : String
  line : Nat
  confidence : Number.Binary32
  deriving DecidableEq, Repr

namespace Triple

/-- What identifies a triple: everything but the file's path and the confidence. -/
def key (t : Triple) : List UInt8 :=
  Identity.relationKey [t.resourceId, t.subject, t.predicate.name, t.object, t.targetSymbol] t.line

/-- The identity of a triple. -/
def id (t : Triple) : String :=
  Identity.ofKey t.key

end Triple

end CodeIndex
