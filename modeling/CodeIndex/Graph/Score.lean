import CodeIndex.Number.Binary32
/-!
# Confidence scores

How sure a resolution is. A score is some tenths shared among equally good candidates, and never
less than a fifth. What a triple stores is the score in binary32: the tenths and the number of
candidates are rounded first, and so is their quotient.
-/

namespace CodeIndex.Graph

/-- Some tenths shared among candidates. -/
structure Score where
  tenths : Nat
  share : Nat
  deriving DecidableEq, Repr

namespace Score

/-- One candidate that nothing speaks against. -/
def exact : Score := ⟨10, 1⟩

/-- The method of the type around the call. -/
def selfMethod : Score := ⟨9, 1⟩

/-- A member of something imported. -/
def importedReceiver : Score := ⟨8, 1⟩

/-- The only definition with the name of the member. -/
def uniqueMember : Score := ⟨5, 1⟩

/-- A plain name that nothing defines. -/
def unresolved : Score := ⟨4, 1⟩

/-- A member of something unknown. -/
def dynamic : Score := ⟨3, 1⟩

/-- One of several definitions of a plain name. -/
def oneOf (count : Nat) : Score := ⟨10, count⟩

/-- A name that may come from any of several wildcard imports. -/
def fromWildcards (count : Nat) : Score := ⟨5, count⟩

/-- A member of one of several imported modules. -/
def memberOfOneOf (count : Nat) : Score := ⟨8, count⟩

/-- The score as a number. -/
def confidence (s : Score) : Number.Binary32 :=
  Number.Binary32.max
    (Number.Binary32.div (Number.Binary32.ofRatio s.tenths 10) (Number.Binary32.ofNat s.share))
    (Number.Binary32.ofRatio 2 10)

end Score

end CodeIndex.Graph
