import CodeIndex.Digest.Hex
import CodeIndex.Number.Decimal
import CodeIndex.Yaml.Cursor
/-!
# Scalars in YAML text

How the text of a scalar is read: plain, between quotes, or as a block of lines. Between two parts
of a plain or quoted scalar that stand on different lines there is a gap (`Gap`): a single line
break in it becomes a space, and of several the first is dropped.
-/

namespace CodeIndex.Yaml

/-! ### Faults -/

/-- What is wrong with a text. -/
inductive Problem where
  /-- A character that may not stand in a text. -/
  | controlCharacter
  /-- No token begins like this. -/
  | badCharacter
  | tabInIndentation
  | flowColon
  | documentMarkInQuotes
  | openQuote
  | badEscape
  | badBlockHeader
  | badAnchor
  | badTag
  | undefinedTagHandle
  | badDirective
  | keyWithoutValue
  | entryNotAllowed
  | keyNotAllowed
  | valueNotAllowed
  | unknownAnchor (name : String)
  | expectedDocumentStart
  | expectedContent
  | expectedEntry
  | expectedKey
  | expectedFlowEntry
  | severalDocuments
  | nestedTooDeeply
  deriving DecidableEq, Repr

/-- The wording of a problem. -/
def Problem.message : Problem → String
  | controlCharacter => "control characters are not allowed"
  | badCharacter => "found character that cannot start any token"
  | tabInIndentation => "found a tab character that violates indentation"
  | flowColon => "found unexpected ':'"
  | documentMarkInQuotes => "found unexpected document indicator"
  | openQuote => "found unexpected end of stream"
  | badEscape => "found unknown escape character"
  | badBlockHeader => "did not find expected comment or line break"
  | badAnchor => "did not find expected alphabetic or numeric character"
  | badTag => "did not find expected tag URI"
  | undefinedTagHandle => "found undefined tag handle"
  | badDirective => "found unknown directive name"
  | keyWithoutValue => "could not find expected ':'"
  | entryNotAllowed => "block sequence entries are not allowed in this context"
  | keyNotAllowed => "mapping keys are not allowed in this context"
  | valueNotAllowed => "mapping values are not allowed in this context"
  | unknownAnchor name => "unknown anchor '" ++ name ++ "'"
  | expectedDocumentStart => "did not find expected <document start>"
  | expectedContent => "did not find expected node content"
  | expectedEntry => "did not find expected '-' indicator"
  | expectedKey => "did not find expected key"
  | expectedFlowEntry => "did not find expected ',' or closing bracket"
  | severalDocuments => "deserializing from YAML containing more than one document is not supported"
  | nestedTooDeeply => "recursion limit exceeded"

/-! ### Gaps -/

/-- The blanks and line breaks between two parts of a scalar. -/
structure Gap where
  /-- The blanks of a gap without a line break. -/
  blanks : List Char
  /-- What the first line break stands for. -/
  first : List Char
  /-- What the further line breaks stand for. -/
  more : List Char
  /-- The gap goes over a line. -/
  broken : Bool

namespace Gap

/-- No gap. -/
def none : Gap := ⟨[], [], [], false⟩

/-- The text that a gap stands for. -/
def text (g : Gap) : List Char :=
  if g.broken then
    if g.first == ['\n'] then (if g.more.isEmpty then [' '] else g.more) else g.first ++ g.more
  else g.blanks

/-- Reads a gap. At the beginning of a line no tab may stand left of the column `tabsFrom`. -/
def read (tabsFrom : Nat) (g : Gap) (c : Cursor) : Except Problem (Gap × Cursor) :=
  match h : c.rest with
  | [] => .ok (g, c)
  | x :: rest =>
    if isBlank x then
      if g.broken && c.column < tabsFrom && x == '\t' then .error .tabInIndentation
      else
        have : (c.skip 1).rest.length < c.rest.length := by simp [Cursor.skip, h]
        read tabsFrom (if g.broken then g else { g with blanks := g.blanks ++ [x] }) (c.skip 1)
    else if isBreak x then
      have := Cursor.length_takeBreak_lt (c := c) (by simp [h])
      read tabsFrom
        (if g.broken then { g with more := g.more ++ c.takeBreak.1 }
          else { blanks := [], first := c.takeBreak.1, more := [], broken := true })
        c.takeBreak.2
    else .ok (g, c)
termination_by c.rest.length

end Gap

/-! ### Plain scalars -/

/-- The characters that end a plain scalar between brackets. -/
def isFlowIndicator (c : Char) : Bool :=
  c == ',' || c == '[' || c == ']' || c == '\x7b' || c == '\x7d'

/-- The next part of a plain scalar: up to a blank, a line break or a character that ends it. -/
def plainPart (inFlow : Bool) : List Char → Except Problem (List Char)
  | [] => .ok []
  | c :: rest =>
    if isBlank c || isBreak c then .ok []
    else if inFlow && c == ':' && rest.head?.any (fun x => isFlowIndicator x || x == '?') then
      .error .flowColon
    else if (c == ':' && endsWord rest.head?) || (inFlow && isFlowIndicator c) then .ok []
    else (plainPart inFlow rest).map (c :: ·)

/-- Reads on in a plain scalar, behind `text` and a gap. The answer has the gap that was left over
at the end. -/
def plainFrom (inFlow : Bool) (indent : Nat) :
    Nat → List Char → Gap → Cursor → Except Problem (List Char × Gap × Cursor)
  | 0, text, gap, c => .ok (text, gap, c)
  | parts + 1, text, gap, c =>
    if c.atDocumentMark || c.peek == some '#' then .ok (text, gap, c)
    else do
      let part ← plainPart inFlow c.rest
      let c := c.skip part.length
      let (text, gap) := if part.isEmpty then (text, gap) else (text ++ gap.text ++ part, Gap.none)
      if c.atBlank || c.atBreak then
        let (gap, c) ← gap.read indent c
        if !inFlow && c.column < indent then .ok (text, gap, c)
        else plainFrom inFlow indent parts text gap c
      else .ok (text, gap, c)

/-- Reads a plain scalar whose further lines have to reach the column `indent`. The answer says
whether the scalar is followed by a new line. -/
def plain (inFlow : Bool) (indent : Nat) (c : Cursor) :
    Except Problem (String × Bool × Cursor) := do
  let (text, gap, c) ← plainFrom inFlow indent (c.rest.length + 1) [] .none c
  return (String.ofList text, gap.broken, c)

/-! ### Quoted scalars -/

/-- The character with a code in hexadecimal digits. -/
def hexChar? (digits : List Char) : Option Char :=
  (digits.foldlM (fun n c => (Digest.hexValue? c).map (n * 16 + ·)) 0).bind fun n =>
    if (0xD800 ≤ n && n ≤ 0xDFFF) || 0x10FFFF < n then none else some (Char.ofNat n)

/-- The escapes of one character. -/
def simpleEscapes : List (Char × Char) :=
  [('0', '\x00'), ('a', '\x07'), ('b', '\x08'), ('t', '\t'), ('\t', '\t'), ('n', '\n'),
    ('v', '\x0b'), ('f', '\x0c'), ('r', '\r'), ('e', '\x1b'), (' ', ' '), ('"', '"'), ('/', '/'),
    ('\\', '\\'), ('N', '\x85'), ('_', '\xa0'), ('L', '\u2028'), ('P', '\u2029')]

/-- The escapes with a code, and how many digits the code has. -/
def codeEscapes : List (Char × Nat) := [('x', 2), ('u', 4), ('U', 8)]

/-- The character that an escape stands for, and how many characters the escape takes behind the
backslash. -/
def escape? : List Char → Option (Char × Nat)
  | [] => none
  | c :: rest =>
    match simpleEscapes.lookup c, codeEscapes.lookup c with
    | some x, _ => some (x, 1)
    | none, some n =>
      if rest.length < n then none else (hexChar? (rest.take n)).map fun x => (x, n + 1)
    | none, none => none

/-- How a part of a quoted scalar ends. -/
inductive PartEnd where
  | closed
  /-- A backslash at the end of the line. -/
  | escapedBreak
  | blank

/-- The next part of a quoted scalar, up to the quote, a blank or the end of the line. The answer
has the cursor behind what ended it. -/
def quotedPart (quote : Char) : Nat → List Char → Cursor →
    Except Problem (List Char × PartEnd × Cursor)
  | 0, text, c => .ok (text, .blank, c)
  | chars + 1, text, c =>
    match c.rest with
    | [] => .ok (text, .blank, c)
    | x :: rest =>
      if isBlank x || isBreak x then .ok (text, .blank, c)
      else if x == quote then
        if quote == '\'' && rest.head? == some quote then
          quotedPart quote chars (text ++ [quote]) (c.skip 2)
        else .ok (text, .closed, c.skip 1)
      else if quote == '"' && x == '\\' then
        if rest.head?.any isBreak then .ok (text, .escapedBreak, (c.skip 1).takeBreak.2)
        else
          match escape? rest with
          | some (y, n) => quotedPart quote chars (text ++ [y]) (c.skip (n + 1))
          | none => .error .badEscape
      else quotedPart quote chars (text ++ [x]) (c.skip 1)

/-- Reads on in a quoted scalar, behind `text`. -/
def quotedFrom (quote : Char) : Nat → List Char → Cursor → Except Problem (List Char × Cursor)
  | 0, _, _ => .error .openQuote
  | parts + 1, text, c =>
    if c.atDocumentMark then .error .documentMarkInQuotes
    else if c.rest.isEmpty then .error .openQuote
    else do
      let (part, last, c) ← quotedPart quote c.rest.length [] c
      let text := text ++ part
      match last with
      | .closed => .ok (text, c)
      | .escapedBreak =>
        let (gap, c) ← Gap.read 0 ⟨[], [], [], true⟩ c
        quotedFrom quote parts (text ++ gap.text) c
      | .blank =>
        let (gap, c) ← Gap.none.read 0 c
        quotedFrom quote parts (text ++ gap.text) c

/-- Reads a quoted scalar from behind its first quote. -/
def quoted (quote : Char) (c : Cursor) : Except Problem (String × Cursor) :=
  (quotedFrom quote (c.rest.length + 1) [] c).map fun (text, c) => (String.ofList text, c)

/-! ### Block scalars -/

/-- What becomes of the line breaks at the end of a block. -/
inductive Chomping where
  | clip
  | strip
  | keep
  deriving DecidableEq, Repr

/-- The indentation indicator of a block, if there is one. -/
def indentDigit? (c : Cursor) : Except Problem (Option Nat × Cursor) :=
  match c.peek with
  | some x =>
    if x == '0' then .error .badBlockHeader
    else if x.isDigit then .ok (some (x.toNat - '0'.toNat), c.skip 1)
    else .ok (none, c)
  | none => .ok (none, c)

/-- The chomping indicator of a block, if there is one. -/
def chomping? (c : Cursor) : Option Chomping × Cursor :=
  match c.peek with
  | some '+' => (some .keep, c.skip 1)
  | some '-' => (some .strip, c.skip 1)
  | _ => (none, c)

/-- Reads the indicators of a block, in either order, and the rest of their line. -/
def blockHeader (c : Cursor) : Except Problem (Chomping × Option Nat × Cursor) := do
  let (chomping, c) := chomping? c
  let (indent, c) ← indentDigit? c
  let (chomping, c) :=
    match chomping, indent with
    | none, some _ => chomping? c
    | chomping, _ => (chomping, c)
  let c := (c.takeWhile isBlank).2
  let c := if c.peek == some '#' then c.skipLine else c
  if c.atLineEnd then return (chomping.getD .clip, indent, c.takeBreak.2)
  throw .badBlockHeader

/-- Reads empty lines of a block whose indentation is `indent`, if that is known. The answer has the
text of the breaks and the longest indentation that was seen. -/
def blockBreaks (indent : Option Nat) : Nat → List Char → Nat → Cursor →
    Except Problem (List Char × Nat × Cursor)
  | 0, breaks, widest, c => .ok (breaks, widest, c)
  | lines + 1, breaks, widest, c =>
    let room := match indent with
      | some n => n - c.column
      | none => c.rest.length
    let c := c.skip ((c.rest.take room).takeWhile (· == ' ')).length
    let widest := max widest c.column
    if indent.all (c.column < ·) && c.peek == some '\t' then .error .tabInIndentation
    else if c.atBreak then
      blockBreaks indent lines (breaks ++ c.takeBreak.1) widest c.takeBreak.2
    else .ok (breaks, widest, c)

/-- Reads the lines of a block. `first` is the break at the end of the line before, `more` are the
empty lines behind it, and `blank` says whether that line began with a blank. -/
def blockLines (folded : Bool) (indent : Nat) : Nat → List Char → List Char → List Char → Bool →
    Cursor → Except Problem (List Char × List Char × List Char × Cursor)
  | 0, text, first, more, _, c => .ok (text, first, more, c)
  | lines + 1, text, first, more, blank, c =>
    if c.column == indent && !c.rest.isEmpty then do
      let nextBlank := c.atBlank
      let joint :=
        if folded && first == ['\n'] && !blank && !nextBlank then
          (if more.isEmpty then [' '] else more)
        else first ++ more
      let (line, c) := c.takeWhile fun x => !isBreak x
      let (first, c) := c.takeBreak
      let (more, _, c) ← blockBreaks (some indent) (c.rest.length + 1) [] 0 c
      blockLines folded indent lines (text ++ joint ++ line) first more nextBlank c
    else .ok (text, first, more, c)

/-- Reads a block scalar from behind its indicator, in a place indented to `parent`. -/
def block (folded : Bool) (parent : Int) (c : Cursor) : Except Problem (String × Cursor) := do
  let (chomping, increment, c) ← blockHeader c
  let given := increment.map fun n => (max parent 0).toNat + n
  let (more, widest, c) ← blockBreaks given (c.rest.length + 1) [] 0 c
  let indent := given.getD (max widest (max (parent + 1).toNat 1))
  let (text, first, more, c) ←
    blockLines folded indent (c.rest.length + 1) [] [] more false c
  let tail := match chomping with
    | .strip => []
    | .clip => first
    | .keep => first ++ more
  return (String.ofList (text ++ tail), c)

end CodeIndex.Yaml
