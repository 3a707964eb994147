import CodeIndex.Suffixes
import CodeIndex.Text.Utf8
/-!
# Patterns of ignore files

A pattern matches a path octet by octet. `?` and `*` stand for one octet and for any run of octets
other than a slash; `**` as a whole component stands for any number of components; `[a-z]` and
`[!a-z]` for an octet in or out of some ranges; `{a,b}` for one of several patterns; a backslash
takes the character behind it as it is. A bracket that is never closed stands for itself.

Braces are multiplied out while the pattern is read, so a pattern is a list of alternatives without
any braces, and a path matches it when one of the alternatives matches.
-/

namespace CodeIndex.Ignore

/-! ### Patterns -/

/-- One step of an alternative. -/
inductive Token where
  | literal (octets : List UInt8)
  | anyOctet
  | anyRun
  /-- An octet in some ranges, or in none of them. -/
  | oneOf (negated : Bool) (ranges : List (UInt8 × UInt8))
  /-- Components in front of the rest. -/
  | componentsBefore
  /-- A slash and anything behind it. -/
  | anythingBelow
  /-- Slashes around components between two parts. -/
  | componentsBetween
  deriving DecidableEq, Repr

/-- Why a pattern is refused. -/
inductive PatternFault where
  | reversedRange
  | openBraces
  | closedBraces
  | lonelyBackslash
  deriving DecidableEq, Repr

/-- A pattern: the alternatives, one of which has to match. -/
structure Pattern where
  alternatives : List (List Token)
  deriving DecidableEq, Repr

/-! ### Classes -/

/-- The octets of a character. -/
def octetsOf (c : Char) : List UInt8 := Text.octets (String.singleton c)

/-- The ranges of octets that a range of characters writes: the octets of both, with a range between
the last octet of the first and the first octet of the last. -/
def octetRanges (first last : Char) : List (UInt8 × UInt8) :=
  let single (b : UInt8) : UInt8 × UInt8 := (b, b)
  if first = last then (octetsOf first).map single
  else
    (octetsOf first).dropLast.map single ++
      [((octetsOf first).getLastD 0, (octetsOf last).headD 0)] ++
      (octetsOf last).tail.map single

/-- The ranges of a class that stands in front of a text, those read so far last first, and what
stands behind its bracket. `isFirst` says that nothing was read yet, and `inRange` that a range was
begun. The answer is `none` when the class is never closed. -/
def classFrom (isFirst inRange : Bool) (ranges : List (Char × Char)) :
    List Char → Except PatternFault (Option (List (Char × Char) × List Char))
  | [] => .ok none
  | c :: rest =>
    if c == ']' && !isFirst then
      .ok (some ((if inRange then ('-', '-') :: ranges else ranges).reverse, rest))
    else if c == '-' && !isFirst && !inRange then classFrom false true ranges rest
    else
      match inRange, ranges with
      | true, (first, _) :: earlier =>
        if c < first then .error .reversedRange
        else classFrom false false ((first, c) :: earlier) rest
      | _, _ => classFrom false false ((c, c) :: ranges) rest

/-- The class behind an opening bracket and what stands behind it; `none` when it is never closed.
-/
def class? (cs : List Char) : Except PatternFault (Option (Token × List Char)) := do
  let negated := cs.head? == some '!' || cs.head? == some '^'
  match ← classFrom true false [] (if negated then cs.tail else cs) with
  | none => return none
  | some (ranges, rest) =>
    return some (.oneOf negated (ranges.flatMap fun (a, b) => octetRanges a b), rest)

/-! ### Reading -/

/-- What has been read of a pattern. Every list of tokens has the last token first. -/
structure Draft where
  /-- The alternatives of the innermost pair of braces since the last comma. -/
  current : List (List Token)
  /-- For each open brace, the alternatives in front of it and those between it and the last comma.
  -/
  outer : List (List (List Token) × List (List Token))

namespace Draft

/-- Nothing has been read. -/
def empty : Draft := ⟨[[]], []⟩

/-- Nothing has been read since the last comma or brace. -/
def isFresh (d : Draft) : Bool := d.current == [[]]

/-- The draft with one more token. -/
def push (d : Draft) (t : Token) : Draft := { d with current := d.current.map (t :: ·) }

/-- The draft with another token in place of the last. -/
def replaceLast (d : Draft) (f : Option Token → Token) : Draft :=
  { d with current := d.current.map fun ts => f ts.head? :: ts.tail }

/-- The alternatives since the last comma; an empty one does not count. -/
def branch (d : Draft) : List (List Token) := if d.isFresh then [] else d.current

/-- A brace opens. -/
def openBrace (d : Draft) : Draft := ⟨[[]], (d.current, []) :: d.outer⟩

/-- A comma, which means nothing special outside of braces. -/
def comma (d : Draft) : Draft :=
  match d.outer with
  | (front, branches) :: outer => ⟨[[]], (front, branches ++ d.branch) :: outer⟩
  | [] => d.push (.literal (octetsOf ','))

/-- A brace closes, if one is open. -/
def closeBrace? (d : Draft) : Option Draft :=
  match d.outer with
  | [] => none
  | (front, branches) :: outer =>
    match branches ++ d.branch with
    | [] => some ⟨front, outer⟩
    | all => some ⟨front.flatMap fun f => all.map (· ++ f), outer⟩

/-- Two stars that are no component of their own. -/
def pushTwoRuns (d : Draft) : Draft := (d.push .anyRun).push .anyRun

end Draft

/-- A slash or the end of the text. -/
def endsComponent (c : Option Char) : Bool := c.all (· == '/')

/-- Two stars behind the character `before` and in front of `cs`. The answer has what is left to
read: a slash behind the stars belongs to them. -/
def twoStars (before : Option Char) (d : Draft) (cs : List Char) : Draft × List Char :=
  let next := cs.head?
  if d.isFresh then
    if endsComponent next then (d.push .componentsBefore, cs.tail) else (d.pushTwoRuns, cs)
  else if before != some '/' then (d.pushTwoRuns, cs)
  else
    let inBraces := !d.outer.isEmpty
    let isLast := next.isNone || (inBraces && (next == some ',' || next == some '\x7d'))
    if !isLast && next != some '/' then (d.pushTwoRuns, cs)
    else
      let token (last : Option Token) : Token :=
        match last with
        | some .componentsBefore => .componentsBefore
        | some .anythingBelow => .anythingBelow
        | _ => if isLast then .anythingBelow else .componentsBetween
      (d.replaceLast token, if isLast then cs else cs.tail)

/-- Reads on behind the character `before`. -/
def readFrom : Nat → Option Char → Draft → List Char → Except PatternFault Draft
  | 0, _, d, _ => .ok d
  | _ + 1, _, d, [] => .ok d
  | steps + 1, before, d, c :: rest =>
    match c with
    | '?' => readFrom steps (some c) (d.push .anyOctet) rest
    | '*' =>
      if rest.head? == some '*' then
        let (d, after) := twoStars before d rest.tail
        let last := if after.length < rest.tail.length then some '/' else some '*'
        readFrom steps last d after
      else readFrom steps (some c) (d.push .anyRun) rest
    | '[' => do
      match ← class? rest with
      | some (t, after) => readFrom steps (some ']') (d.push t) after
      | none => readFrom steps (some c) (d.push (.literal (octetsOf c))) rest
    | '\x7b' => readFrom steps (some c) d.openBrace rest
    | '\x7d' =>
      match d.closeBrace? with
      | some d => readFrom steps (some c) d rest
      | none => .error .closedBraces
    | ',' => readFrom steps (some c) d.comma rest
    | '\\' =>
      match rest with
      | [] => .error .lonelyBackslash
      | x :: rest => readFrom steps (some x) (d.push (.literal (octetsOf x))) rest
    | _ => readFrom steps (some c) (d.push (.literal (octetsOf c))) rest

/-- The pattern that a text writes. -/
def Pattern.read (cs : List Char) : Except PatternFault Pattern := do
  let d ← readFrom cs.length none .empty cs
  if d.outer.isEmpty then return ⟨d.current.map List.reverse⟩
  throw .openBraces

/-! ### Matching -/

/-- The octet of a slash. -/
def slash : UInt8 := 0x2F

/-- Every suffix that is reached without passing a slash. -/
def suffixesInComponent : List UInt8 → List (List UInt8)
  | [] => [[]]
  | b :: rest => (b :: rest) :: if b == slash then [] else suffixesInComponent rest

/-- What a token may leave of a path. -/
def Token.leaves (t : Token) (bs : List UInt8) : List (List UInt8) :=
  match t with
  | literal octets => if octets.isPrefixOf bs then [bs.drop octets.length] else []
  | anyRun => suffixesInComponent bs
  | componentsBefore => bs :: behindEach slash bs
  | anyOctet =>
    match bs with
    | b :: rest => if b == slash then [] else [rest]
    | [] => []
  | oneOf negated ranges =>
    match bs with
    | b :: rest => if (ranges.any fun (a, z) => a ≤ b && b ≤ z) != negated then [rest] else []
    | [] => []
  | anythingBelow =>
    match bs with
    | b :: rest => if b == slash then suffixes rest else []
    | [] => []
  | componentsBetween =>
    match bs with
    | b :: rest => if b == slash then rest :: behindEach slash rest else []
    | [] => []

/-- The tokens match all of a path. -/
def matchesAll : List Token → List UInt8 → Bool
  | [], bs => bs.isEmpty
  | t :: ts, bs => (t.leaves bs).any fun rest => matchesAll ts rest

/-- The pattern matches a path. Two stars alone match every path. -/
def Pattern.accepts (p : Pattern) (path : String) : Bool :=
  let bs := Text.octets path
  p.alternatives.any fun ts => ts == [.componentsBefore] || matchesAll ts bs

end CodeIndex.Ignore
