/-!
# Suffixes

The suffixes of a list, which are the places where the match of a wildcard may end: all of them, and
those right behind a separator.
-/

namespace CodeIndex

/-- Every suffix of a list, the list itself first and the empty one last. -/
def suffixes {α : Type} : List α → List (List α)
  | [] => [[]]
  | x :: rest => (x :: rest) :: suffixes rest

/-- What stands behind each separator. -/
def behindEach {α : Type} [BEq α] (separator : α) : List α → List (List α)
  | [] => []
  | x :: rest =>
    if x == separator then rest :: behindEach separator rest else behindEach separator rest

end CodeIndex
