import CodeIndex.LineIndex
import CodeIndex.Text.Utf8
/-!
# Offsets of lines

A text with the octets at which its lines begin. A range of lines is cut out of the text between two
of them, without putting any lines together. Lines are numbered as in a line index.
-/

namespace CodeIndex

/-- A text and where its lines stand in it. -/
structure LineOffsets where
  text : String
  /-- Entry `i` counts the octets of the first `i` lines. -/
  offsets : Array Nat

namespace LineOffsets

/-- The offsets of a text. -/
def ofText (text : String) : LineOffsets where
  text := text
  offsets :=
    let sizes := (Lines.split text.toList).map fun line => (String.ofList line).utf8ByteSize
    (runningSums 0 sizes).toArray

/-- The number of lines. -/
def size (lines : LineOffsets) : Nat :=
  lines.offsets.size - 1

/-- The octets of lines `start` to `stop`; lines outside the text hold nothing. There is no answer
if they begin or end inside a character. -/
def cut? (lines : LineOffsets) (start stop : Nat) : Option String :=
  let first := LineIndex.clampStart start
  let last := min stop lines.size
  if first ≤ last then
    Text.slice? lines.text (lines.offsets.getD (first - 1) 0) (lines.offsets.getD last 0)
  else
    some ""

end LineOffsets

end CodeIndex
