import CodeIndex.Yaml.Scalar
/-!
# Tokens of YAML text

The text is cut into tokens. In block style the nesting is in the columns: a deeper column opens a
collection, and a return to a lower one closes it (`Lexer.roll`, `Lexer.unroll`). Whether a scalar
is a key is known only at the colon behind it, so the place where a key may begin is remembered,
and the tokens that open a mapping and a key are inserted there later (`SimpleKey`). Such a key
stays on one line and within 1024 characters.
-/

namespace CodeIndex.Yaml

/-! ### Tokens -/

/-- How a scalar is written. -/
inductive Style where
  | plain
  | quoted
  | literal
  | folded
  deriving DecidableEq, Repr

/-- A token. -/
inductive Token where
  | version (major minor : Nat)
  | tagHandle (handle front : String)
  | documentStart
  | documentEnd
  | blockSequence
  | blockMapping
  | blockEnd
  | flowSequence
  | flowSequenceEnd
  | flowMapping
  | flowMappingEnd
  | blockEntry
  | flowEntry
  | key
  | value
  | alias (name : String)
  | anchor (name : String)
  | tag (handle suffix : String)
  | scalar (text : String) (style : Style)
  deriving DecidableEq, Repr

/-- A place where a key may have begun. -/
structure SimpleKey where
  /-- Something has to follow that makes it a key. -/
  required : Bool
  /-- The number of tokens in front. -/
  number : Nat
  index : Nat
  line : Nat
  column : Nat

/-- The state of cutting a text into tokens. -/
structure Lexer where
  cursor : Cursor
  tokens : Array Token
  /-- The column of the innermost block collection, or -1. -/
  indent : Int
  /-- The columns of the collections around it. -/
  indents : List Int
  /-- A key may begin here. -/
  keyAllowed : Bool
  /-- The place of a possible key at the present level of brackets. -/
  key : Option SimpleKey
  /-- The same for every level around it. -/
  outer : List (Option SimpleKey)

namespace Lexer

/-- The beginning of a text. -/
def ofText (cs : List Char) : Lexer :=
  { cursor := .ofText cs
    tokens := #[]
    indent := -1
    indents := []
    keyAllowed := true
    key := none
    outer := [] }

/-- The place is between brackets. -/
def inFlow (l : Lexer) : Bool := !l.outer.isEmpty

/-- The lexer with one more token. -/
def push (l : Lexer) (t : Token) : Lexer := { l with tokens := l.tokens.push t }

/-- The lexer at another place. -/
def moveTo (l : Lexer) (c : Cursor) : Lexer := { l with cursor := c }

/-- The lexer behind a token of `n` characters. -/
def pass (l : Lexer) (n : Nat) (t : Token) : Lexer := (l.moveTo (l.cursor.skip n)).push t

/-! ### Keys -/

/-- A possible key that can be one no longer is given up. -/
def giveUp (key : Option SimpleKey) : Except Problem Unit :=
  if key.any (·.required) then .error .keyWithoutValue else .ok ()

/-- The possible keys that can still be keys. -/
def dropStale (c : Cursor) (key : Option SimpleKey) : Except Problem (Option SimpleKey) :=
  if key.any fun k => k.line < c.line || k.index + 1024 < c.index then do
    giveUp key
    return none
  else .ok key

/-- The lexer without the keys that became impossible. -/
def withoutStale (l : Lexer) : Except Problem Lexer := do
  let key ← dropStale l.cursor l.key
  let outer ← l.outer.mapM (dropStale l.cursor)
  return { l with key := key, outer := outer }

/-- No key can begin before this place any more. -/
def dropKey (l : Lexer) : Except Problem Lexer := do
  giveUp l.key
  return { l with key := none }

/-- A key may begin at this place, if one may begin here at all. -/
def saveKey (l : Lexer) : Except Problem Lexer := do
  if !l.keyAllowed then return l
  let l ← l.dropKey
  let required := !l.inFlow && l.indent == (l.cursor.column : Int)
  return { l with
    key := some ⟨required, l.tokens.size, l.cursor.index, l.cursor.line, l.cursor.column⟩ }

/-! ### Indentation -/

/-- Opens a block collection at a column, unless one is open there. Its token is put in front of the
tokens from `number` on. -/
def roll (l : Lexer) (column : Nat) (number : Nat) (t : Token) : Lexer :=
  if !l.inFlow && l.indent < (column : Int) then
    { l with
      indent := column
      indents := l.indent :: l.indents
      tokens := l.tokens.insertIdxIfInBounds number t }
  else l

/-- Closes the block collections to the right of a column. -/
def unroll (l : Lexer) (column : Int) : Lexer :=
  if l.inFlow then l
  else
    let deeper := (l.indent :: l.indents).takeWhile (column < ·)
    match (l.indent :: l.indents).drop deeper.length with
    | indent :: indents =>
      { l with
        indent := indent
        indents := indents
        tokens := l.tokens ++ (deeper.map fun _ => Token.blockEnd).toArray }
    | [] => l

/-! ### Single tokens -/

/-- Passes blanks, comments and empty lines. A tab counts as a blank only where no key may begin. -/
def skipBlanks (inFlow : Bool) : Nat → Bool → Cursor → Bool × Cursor
  | 0, keyAllowed, c => (keyAllowed, c)
  | lines + 1, keyAllowed, c =>
    let tabs := inFlow || !keyAllowed
    let c := (c.takeWhile fun x => x == ' ' || (tabs && x == '\t')).2
    let c := if c.peek == some '#' then c.skipLine else c
    -- On a new line of block style a key may begin again.
    if c.atBreak then skipBlanks inFlow lines (keyAllowed || !inFlow) c.takeBreak.2
    else (keyAllowed, c)

/-- The name behind the sign of an anchor or alias. -/
def anchorName (c : Cursor) : Except Problem (String × Cursor) :=
  let (name, next) := (c.skip 1).takeWhile isNameChar
  let ends := endsWord next.peek || next.peek.any fun x => "?:,]\x7d%@\x60".toList.contains x
  if name.isEmpty || !ends then .error .badAnchor else .ok (String.ofList name, next)

/-- The character may stand in a tag. Some may do so only between angle brackets or in a directive.
-/
def isTagChar (anywhere : Bool) (c : Char) : Bool :=
  isNameChar c || ";/?:@&=+$.!~*'()".toList.contains c ||
    (anywhere && (c == ',' || c == '[' || c == ']'))

/-- The octets of a run of escapes of two hexadecimal digits. -/
def tagOctets : Nat → List Char → List UInt8 × List Char
  | 0, cs => ([], cs)
  | octets + 1, cs =>
    match cs with
    | '%' :: a :: b :: rest =>
      match Digest.hexValue? a, Digest.hexValue? b with
      | some x, some y =>
        let (more, rest) := tagOctets octets rest
        (UInt8.ofNat (x * 16 + y) :: more, rest)
      | _, _ => ([], cs)
    | _ => ([], cs)

/-- Reads the characters of a tag. A percent sign begins the escape of an octet; escapes together
have to be UTF-8. -/
def tagText (anywhere : Bool) : Nat → List Char → Cursor → Except Problem (List Char × Cursor)
  | 0, text, c => .ok (text, c)
  | parts + 1, text, c =>
    if c.peek == some '%' then
      let (octets, rest) := tagOctets c.rest.length c.rest
      match octets, String.fromUTF8? ⟨octets.toArray⟩ with
      | _ :: _, some s =>
        tagText anywhere parts (text ++ s.toList) (c.skip (c.rest.length - rest.length))
      | _, _ => .error .badTag
    else
      let (taken, next) := c.takeWhile (isTagChar anywhere)
      if taken.isEmpty then .ok (text, c) else tagText anywhere parts (text ++ taken) next

/-- Reads the characters of a tag behind `front`; there has to be one. -/
def tagSuffix (anywhere : Bool) (front : List Char) (c : Cursor) :
    Except Problem (String × Cursor) := do
  let (text, c) ← tagText anywhere (c.rest.length + 1) front c
  if text.isEmpty then throw .badTag
  return (String.ofList text, c)

/-- Reads a handle: an exclamation mark, and perhaps a name and a second one. -/
def tagHandle (c : Cursor) : List Char × Cursor :=
  let (name, next) := (c.skip 1).takeWhile isNameChar
  if next.peek == some '!' then ('!' :: name ++ ['!'], next.skip 1) else ('!' :: name, next)

/-- Reads a tag. -/
def tag (inFlow : Bool) (c : Cursor) : Except Problem (Token × Cursor) := do
  let (handle, suffix, c) ←
    if c.peekAt 1 == some '<' then do
      let (suffix, c) ← tagSuffix true [] (c.skip 2)
      if c.peek != some '>' then throw .badTag
      pure ("", suffix, c.skip 1)
    else
      let (handle, next) := tagHandle c
      if 1 < handle.length && handle.getLast? == some '!' then do
        let (suffix, c) ← tagSuffix false [] next
        pure (String.ofList handle, suffix, c)
      else do
        let (text, c) ← tagText false (next.rest.length + 1) handle.tail next
        pure (if text.isEmpty then ("", "!", c) else ("!", String.ofList text, c))
  if endsWord c.peek || (inFlow && c.peek == some ',') then return (.tag handle suffix, c)
  throw .badTag

/-- The digits of a version number; there is at least one and there are at most nine. -/
def versionNumber (c : Cursor) : Except Problem (Nat × Cursor) :=
  let (digits, next) := c.takeWhile Char.isDigit
  if digits.isEmpty || 9 < digits.length then .error .badDirective
  else .ok (Number.valueFrom 0 digits, next)

/-- Reads a directive and the rest of its line. -/
def directive (c : Cursor) : Except Problem (Token × Cursor) := do
  let (name, next) := (c.skip 1).takeWhile isNameChar
  if name.isEmpty || !endsWord next.peek then throw .badDirective
  let c := (next.takeWhile isBlank).2
  let (token, c) ← match String.ofList name with
    | "YAML" => do
      let (major, c) ← versionNumber c
      if c.peek != some '.' then throw .badDirective
      let (minor, c) ← versionNumber (c.skip 1)
      pure (Token.version major minor, c)
    | "TAG" => do
      if c.peek != some '!' then throw .badDirective
      let (handle, next) := tagHandle c
      if 1 < handle.length && handle.getLast? != some '!' then throw .badDirective
      if !next.atBlank then throw .badDirective
      let (front, c) ← tagSuffix true [] (next.takeWhile isBlank).2
      if !endsWord c.peek then throw .badDirective
      pure (Token.tagHandle (String.ofList handle) front, c)
    | _ => throw .badDirective
  let c := (c.takeWhile isBlank).2
  let c := if c.peek == some '#' then c.skipLine else c
  if !c.atLineEnd then throw .badDirective
  return (token, c.takeBreak.2)

/-! ### The next token -/

/-- Leaves all collections in front of a line that concerns the document. -/
def leaveDocument (l : Lexer) : Except Problem Lexer := do
  let l ← (l.unroll (-1)).dropKey
  return { l with keyAllowed := false }

/-- A token in front of which a key may begin, and behind which none may. -/
def keyed (l : Lexer) (read : Cursor → Except Problem (Token × Cursor)) :
    Except Problem Lexer := do
  let l ← l.saveKey
  let (t, c) ← read l.cursor
  return ({ l with keyAllowed := false }.moveTo c).push t

/-- A bracket that opens. -/
def openFlow (l : Lexer) (t : Token) : Except Problem Lexer := do
  let l ← l.saveKey
  return { l with outer := l.key :: l.outer, key := none, keyAllowed := true }.pass 1 t

/-- A bracket that closes. -/
def closeFlow (l : Lexer) (t : Token) : Except Problem Lexer := do
  let l ← l.dropKey
  let l := match l.outer with
    | key :: outer => { l with key := key, outer := outer }
    | [] => l
  return { l with keyAllowed := false }.pass 1 t

/-- A dash of a sequence. -/
def blockEntry (l : Lexer) : Except Problem Lexer := do
  if !l.inFlow && !l.keyAllowed then throw .entryNotAllowed
  let l ← (l.roll l.cursor.column l.tokens.size .blockSequence).dropKey
  return { l with keyAllowed := true }.pass 1 .blockEntry

/-- A question mark in front of a key. -/
def explicitKey (l : Lexer) : Except Problem Lexer := do
  if !l.inFlow && !l.keyAllowed then throw .keyNotAllowed
  let l ← (l.roll l.cursor.column l.tokens.size .blockMapping).dropKey
  return { l with keyAllowed := !l.inFlow }.pass 1 .key

/-- A colon in front of a value. What stood at the place of a possible key is a key now. -/
def value (l : Lexer) : Except Problem Lexer := do
  match l.key with
  | some key =>
    -- Both tokens go to the place of the key; the mapping is inserted last, so it comes first.
    let l := { l with tokens := l.tokens.insertIdxIfInBounds key.number .key }
    let l := l.roll key.column key.number .blockMapping
    return { l with key := none, keyAllowed := false }.pass 1 .value
  | none =>
    if !l.inFlow && !l.keyAllowed then throw .valueNotAllowed
    let l := l.roll l.cursor.column l.tokens.size .blockMapping
    return { l with keyAllowed := !l.inFlow }.pass 1 .value

/-- A scalar of several lines behind an indicator. -/
def blockScalar (l : Lexer) (folded : Bool) : Except Problem Lexer := do
  let l ← l.dropKey
  let (text, c) ← block folded l.indent (l.cursor.skip 1)
  let t := Token.scalar text (if folded then .folded else .literal)
  return ({ l with keyAllowed := true }.moveTo c).push t

/-- A scalar without quotes. -/
def plainScalar (l : Lexer) : Except Problem Lexer := do
  let l ← l.saveKey
  let (text, newLine, c) ← plain l.inFlow (l.indent + 1).toNat l.cursor
  return ({ l with keyAllowed := newLine }.moveTo c).push (.scalar text .plain)

/-- The characters that cannot begin a plain scalar. -/
def indicators : List Char := "-?:,[]\x7b\x7d#&*!|>'\"%@\x60".toList

/-- A plain scalar may begin with the character `x`, which `next` follows. -/
def beginsPlain (inFlow : Bool) (x : Char) (next : Option Char) : Bool :=
  (!isBlank x && !indicators.contains x) || (x == '-' && !next.any isBlank) ||
    (!inFlow && (x == '?' || x == ':') && !endsWord next)

/-- Reads the token that begins at the cursor with the character `x`. -/
def token (l : Lexer) (x : Char) : Except Problem Lexer :=
  let c := l.cursor
  let next := c.peekAt 1
  let apart := l.inFlow || endsWord next
  if c.column == 0 && x == '%' then do
    let l ← l.leaveDocument
    let (t, c) ← directive c
    return (l.moveTo c).push t
  else if c.atMark '-' then do return (← l.leaveDocument).pass 3 .documentStart
  else if c.atMark '.' then do return (← l.leaveDocument).pass 3 .documentEnd
  else if x == '[' then l.openFlow .flowSequence
  else if x == '\x7b' then l.openFlow .flowMapping
  else if x == ']' then l.closeFlow .flowSequenceEnd
  else if x == '\x7d' then l.closeFlow .flowMappingEnd
  else if x == ',' then do
    return { (← l.dropKey) with keyAllowed := true }.pass 1 .flowEntry
  else if x == '-' && endsWord next then l.blockEntry
  else if x == '?' && apart then l.explicitKey
  else if x == ':' && apart then l.value
  else if x == '*' then l.keyed fun c => (anchorName c).map fun (n, c) => (.alias n, c)
  else if x == '&' then l.keyed fun c => (anchorName c).map fun (n, c) => (.anchor n, c)
  else if x == '!' then l.keyed (tag l.inFlow)
  else if x == '|' && !l.inFlow then l.blockScalar false
  else if x == '>' && !l.inFlow then l.blockScalar true
  else if x == '\'' || x == '"' then
    l.keyed fun c => (quoted x (c.skip 1)).map fun (s, c) => (.scalar s .quoted, c)
  else if beginsPlain l.inFlow x next then l.plainScalar
  else .error .badCharacter

/-- Cuts the rest of a text into tokens; there are at most so many. -/
def run : Nat → Lexer → Except Problem (List Token)
  | 0, l => .ok l.tokens.toList
  | tokens + 1, l => do
    let (keyAllowed, c) := skipBlanks l.inFlow (l.cursor.rest.length + 1) l.keyAllowed l.cursor
    let l ← ({ l with keyAllowed := keyAllowed }.moveTo c).withoutStale
    let l := l.unroll c.column
    match c.peek with
    | some x => run tokens (← l.token x)
    | none =>
      let l ← (l.unroll (-1)).dropKey
      return l.tokens.toList

end Lexer

/-- The tokens of a text. A byte order mark may come first. -/
def tokensOf (text : String) : Except Problem (List Token) :=
  let cs := text.toList
  if cs.all isPrintable then
    let start := Lexer.ofText cs
    let start := if cs.head? == some '\ufeff' then start.moveTo (start.cursor.skip 1) else start
    start.run (cs.length + 1)
  else .error .controlCharacter

end CodeIndex.Yaml
