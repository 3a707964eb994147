import CodeIndex.Text.Space
/-!
# Lines and token estimates

A text as numbered lines, with running character counts. A line keeps its newline, so the lines
joined are the text; a final newline opens no further line. Lines are numbered from one and every
range of lines is inclusive.

A token is estimated as four characters, rounded up. The estimate of a range of lines comes from the
running counts, without reading the text again.
-/

namespace CodeIndex

/-- The token estimate of `n` characters: a quarter of them, rounded up. -/
def tokensOfChars (n : Nat) : Nat :=
  (n + 3) / 4

/-- The token estimate of a text. -/
def estimateTokens (text : String) : Nat :=
  tokensOfChars text.length

/-! ### Cutting a text into lines -/

namespace Lines

/-- The lines of `cs`, each with its newline; the last one may lack it. -/
def split : List Char → List (List Char)
  | [] => []
  | c :: rest =>
    if c = '\n' then [c] :: split rest
    else
      match split rest with
      | [] => [[c]]
      | line :: lines => (c :: line) :: lines

/-- The lines joined are the text. -/
theorem flatten_split (cs : List Char) : (split cs).flatten = cs := by
  induction cs with
  | nil => rfl
  | cons c rest ih =>
    unfold split
    split
    · simp [ih]
    · split
      · rename_i h; rw [h] at ih; simp at ih; simp [← ih]
      · rename_i h; rw [h] at ih; simp at ih; simp [ih]

end Lines

/-! ### The index -/

/-- Running sums of `ns`, starting at `total`: one more entry than `ns` has. -/
def runningSums (total : Nat) : List Nat → List Nat
  | [] => [total]
  | n :: ns => total :: runningSums (total + n) ns

/-- A text cut into lines, with the number of characters in front of each line. -/
structure LineIndex where
  /-- The lines in order, each with its newline. -/
  lines : Array String
  /-- Entry `i` counts the characters of the first `i` lines. -/
  chars : Array Nat

/-- A run of lines; `oversized` marks a single line that alone exceeds the budget. -/
structure LineSpan where
  start : Nat
  stop : Nat
  oversized : Bool
  deriving DecidableEq, Repr, Inhabited

namespace LineIndex

/-- The index of a text. -/
def ofText (text : String) : LineIndex :=
  let lines := Lines.split text.toList
  { lines := (lines.map String.ofList).toArray
    chars := (runningSums 0 (lines.map List.length)).toArray }

/-- The number of lines. -/
def size (index : LineIndex) : Nat :=
  index.lines.size

/-- The first line that a range may begin with. -/
def clampStart (start : Nat) : Nat :=
  max start 1

/-- The last line that a range may end with. -/
def clampStop (index : LineIndex) (stop : Nat) : Nat :=
  min stop index.size

/-- The text of lines `start` to `stop`; lines outside the text hold nothing. -/
def slice (index : LineIndex) (start stop : Nat) : String :=
  String.join (index.lines.extract (clampStart start - 1) (index.clampStop stop)).toList

/-- The token estimate of lines `start` to `stop`, from the running counts. -/
def tokens (index : LineIndex) (start stop : Nat) : Nat :=
  let first := clampStart start
  let last := index.clampStop stop
  if first ≤ last then tokensOfChars (index.chars.getD last 0 - index.chars.getD (first - 1) 0)
  else 0

/-- The line holds nothing but white space. A line outside the text is blank. -/
def isBlankLine (index : LineIndex) (line : Nat) : Bool :=
  Text.isBlank (index.slice line line)

/-! ### Trimming a range -/

/-- The first line from `line` on, at most `count` further, that is not blank; `line + count` if
there is none. -/
def skipBlankDown (index : LineIndex) (line : Nat) : Nat → Nat
  | 0 => line
  | count + 1 => if index.isBlankLine line then index.skipBlankDown (line + 1) count else line

/-- The last line at or before `line`, at most `count` back, that is not blank; `line - count` if
there is none. -/
def skipBlankUp (index : LineIndex) (line : Nat) : Nat → Nat
  | 0 => line
  | count + 1 => if index.isBlankLine line then index.skipBlankUp (line - 1) count else line

/-- The range without the blank lines at its edges; `none` when every line of it is blank. -/
def trim (index : LineIndex) (start stop : Nat) : Option (Nat × Nat) :=
  let first := clampStart start
  let last := index.clampStop stop
  let first := index.skipBlankDown first (last + 1 - first)
  if first ≤ last then some (first, index.skipBlankUp last (last - first)) else none

/-! ### Windows -/

/-- The last line of the window that begins at `start` and now ends at `stop`: it takes in the next
line, at most `count` times, while it keeps to `maxLines` lines and `maxTokens` tokens. -/
def growWindow (index : LineIndex) (maxLines maxTokens start stop : Nat) : Nat → Nat
  | 0 => stop
  | count + 1 =>
    if stop + 1 - start < maxLines && index.tokens start (stop + 1) ≤ maxTokens then
      index.growWindow maxLines maxTokens start (stop + 1) count
    else
      stop

/-- A window never shrinks while it grows. -/
theorem le_growWindow (index : LineIndex) (maxLines maxTokens start stop count : Nat) :
    stop ≤ index.growWindow maxLines maxTokens start stop count := by
  induction count generalizing stop with
  | zero => exact Nat.le_refl _
  | succ count ih =>
    unfold growWindow
    split
    · exact Nat.le_trans (Nat.le_succ _) (ih _)
    · exact Nat.le_refl _

/-- The windows from line `start` to line `last`, both inside the text. -/
def windowsFrom (index : LineIndex) (maxLines maxTokens start last : Nat) : List LineSpan :=
  if start ≤ last then
    let stop := index.growWindow maxLines maxTokens start start (last - start)
    ⟨start, stop, index.tokens start stop > maxTokens⟩ ::
      index.windowsFrom maxLines maxTokens (stop + 1) last
  else
    []
termination_by last + 1 - start
decreasing_by
  have := index.le_growWindow maxLines maxTokens start start (last - start)
  omega

/-- The range cut into consecutive windows of at most `maxLines` lines (at least one) and
`maxTokens` tokens, each as long as it can be. A line over the budget stands alone. -/
def windows (index : LineIndex) (start stop maxLines maxTokens : Nat) : List LineSpan :=
  index.windowsFrom (max maxLines 1) maxTokens (clampStart start) (index.clampStop stop)

end LineIndex

end CodeIndex
