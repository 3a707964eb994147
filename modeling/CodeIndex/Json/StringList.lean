import CodeIndex.Digest.Hex
import CodeIndex.Json
import CodeIndex.Number.Decimal
/-!
# Lists of strings as JSON text

Writing a list of strings and reading it back. The reader goes through the text once and its error
says what it met first and where: a line, and the number of octets in that line.
-/

namespace CodeIndex.Json

open CodeIndex.Number
open CodeIndex.Digest (hexValue?)

/-! ### Writing -/

/-- A list of strings as compact JSON. -/
def writeStrings (items : List String) : String :=
  (strs items).compact

/-! ### Places in a text -/

/-- The line and the octet that come after `read`, which was read so far, as a suffix of an error.
-/
def placeText (read : List Char) : String :=
  let line := read.count '\n' + 1
  let inLine := (read.reverse.takeWhile (· != '\n')).foldl (fun n c => n + c.utf8Size) 0
  " at line " ++ natText line ++ " column " ++ natText inLine

/-- What is left of a text, and what was read of it, the latest character first. -/
structure Cursor where
  back : List Char
  rest : List Char

namespace Cursor

/-- The cursor behind one more character. -/
def next (c : Cursor) : Cursor :=
  match c.rest with
  | [] => c
  | x :: rest => ⟨x :: c.back, rest⟩

/-- The cursor behind `n` more characters. -/
def skip (c : Cursor) : Nat → Cursor
  | 0 => c
  | n + 1 => c.next.skip n

/-- The cursor in front of the next character that is no white space of JSON. -/
def skipBlank (c : Cursor) : Cursor :=
  c.skip (c.rest.takeWhile fun x => x == ' ' || x == '\n' || x == '\t' || x == '\r').length

/-- An error about what was read last. -/
def fail {α : Type} (c : Cursor) (message : String) : Except String α :=
  .error (message ++ placeText c.back.reverse)

/-- An error about the next character. -/
def failNext {α : Type} (c : Cursor) (message : String) : Except String α :=
  c.next.fail message

end Cursor

/-! ### Strings -/

/-- The number that four hexadecimal digits write. -/
def readHex4 (c : Cursor) : Except String (Nat × Cursor) :=
  match c.rest with
  | a :: b :: d :: e :: _ =>
    match hexValue? a, hexValue? b, hexValue? d, hexValue? e with
    | some a, some b, some d, some e => .ok (((a * 16 + b) * 16 + d) * 16 + e, c.skip 4)
    | _, _, _, _ => (c.skip 4).fail "invalid escape"
  | rest => (c.skip rest.length).fail "EOF while parsing a string"

/-- The character of a `\u` escape; a character beyond the first 65536 takes two of them. -/
def readUnicodeEscape (c : Cursor) : Except String (Char × Cursor) := do
  let (n, c) ← readHex4 c
  if 0xDC00 ≤ n ∧ n ≤ 0xDFFF then c.fail "lone leading surrogate in hex escape"
  else if 0xD800 ≤ n ∧ n ≤ 0xDBFF then
    match c.rest with
    | '\\' :: 'u' :: _ =>
      let (low, c) ← readHex4 (c.skip 2)
      if 0xDC00 ≤ low ∧ low ≤ 0xDFFF then
        .ok (Char.ofNat (0x10000 + (n - 0xD800) * 0x400 + (low - 0xDC00)), c)
      else c.fail "lone leading surrogate in hex escape"
    | '\\' :: _ => (c.skip 2).fail "unexpected end of hex escape"
    | [] => c.fail "EOF while parsing a string"
    | _ => c.next.fail "unexpected end of hex escape"
  else .ok (Char.ofNat n, c)

/-- The characters of a string up to its closing quote, at most `fuel` of them. -/
def readStringFrom (read : List Char) (c : Cursor) : Nat → Except String (String × Cursor)
  | 0 => c.fail "EOF while parsing a string"
  | fuel + 1 =>
    match c.rest with
    | [] => c.fail "EOF while parsing a string"
    | '"' :: _ => .ok (String.ofList read.reverse, c.next)
    | '\\' :: e :: _ =>
      let simple (x : Char) := readStringFrom (x :: read) (c.skip 2) fuel
      match e with
      | '"' => simple '"'
      | '\\' => simple '\\'
      | '/' => simple '/'
      | 'b' => simple '\x08'
      | 'f' => simple '\x0c'
      | 'n' => simple '\n'
      | 'r' => simple '\r'
      | 't' => simple '\t'
      | 'u' => do
        let (x, c) ← readUnicodeEscape (c.skip 2)
        readStringFrom (x :: read) c fuel
      | _ => (c.skip 2).fail "invalid escape"
    | '\\' :: [] => c.next.fail "EOF while parsing a string"
    | x :: _ =>
      if x.toNat < 32 then
        c.next.fail "control character (\\u0000-\\u001F) found while parsing a string"
      else readStringFrom (x :: read) c.next fuel

/-- The string behind an opening quote. -/
def readString (c : Cursor) : Except String (String × Cursor) :=
  readStringFrom [] c (c.rest.length + 1)

/-! ### Values of other kinds -/

/-- A text in quotes, the way an error shows it. -/
def shown (s : String) : String :=
  let escape (c : Char) : List Char :=
    if c == '"' then ['\\', '"']
    else if c == '\\' then ['\\', '\\']
    else if c == '\n' then ['\\', 'n']
    else if c == '\r' then ['\\', 'r']
    else if c == '\t' then ['\\', 't']
    else [c]
  String.ofList ('"' :: s.toList.flatMap escape ++ ['"'])

/-- The rest of a word after its first character; the cursor stands behind that character. -/
def readWord (c : Cursor) (word : List Char) : Except String Cursor :=
  match word, c.rest with
  | [], _ => .ok c
  | _, [] => c.fail "EOF while parsing a value"
  | w :: ws, x :: _ => if x == w then readWord c.next ws else c.next.fail "expected ident"

/-- The error about a number where something else is expected. -/
def failNumber {α : Type} (c : Cursor) (expected : String) : Except String α :=
  let sign := c.rest.takeWhile (· == '-')
  let whole := (c.rest.drop sign.length).takeWhile isDigit
  let behind := c.skip (sign.length + whole.length)
  let fraction := match behind.rest with
    | '.' :: rest => '.' :: rest.takeWhile isDigit
    | _ => []
  let behind := behind.skip fraction.length
  if behind.rest.isEmpty && whole.isEmpty then
    behind.fail "EOF while parsing a value"
  else if 1 < sign.length || whole.isEmpty then
    (c.skip 2).fail "invalid number"
  else if 1 < whole.length && whole.head? == some '0' then
    (c.skip (sign.length + 2)).fail "invalid number"
  else if fraction.length == 1 then
    behind.failNext (if behind.rest.isEmpty then "EOF while parsing a value" else "invalid number")
  else
    let kind := if fraction.isEmpty then "integer" else "floating point"
    behind.fail ("invalid type: " ++ kind ++ " " ++ "\x60" ++
      String.ofList (sign ++ whole ++ fraction) ++ "\x60" ++ ", expected " ++ expected)

/-- The error about a value that is not what is expected. -/
def failValue {α : Type} (c : Cursor) (expected : String) : Except String α :=
  let wrong (c : Cursor) (what : String) : Except String α :=
    c.fail ("invalid type: " ++ what ++ ", expected " ++ expected)
  match c.rest with
  | 'n' :: _ => do wrong (← readWord c.next ['u', 'l', 'l']) "null"
  | 't' :: _ => do wrong (← readWord c.next ['r', 'u', 'e']) "boolean \x60true\x60"
  | 'f' :: _ => do wrong (← readWord c.next ['a', 'l', 's', 'e']) "boolean \x60false\x60"
  | '"' :: _ => do
    let (s, c) ← readString c.next
    wrong c ("string " ++ shown s)
  | '[' :: _ => wrong c "sequence"
  | '\x7b' :: _ => wrong c "map"
  | x :: _ =>
    if x == '-' || isDigit x then failNumber c expected else c.failNext "expected value"
  | [] => c.fail "EOF while parsing a value"

/-! ### Lists -/

/-- One string of a list. -/
def readItem (c : Cursor) : Except String (String × Cursor) :=
  match c.rest with
  | '"' :: _ => readString c.next
  | _ => failValue c "a string"

/-- The strings behind the first one, up to the closing bracket, at most `fuel` of them. -/
def readItems (read : List String) (c : Cursor) : Nat → Except String (List String × Cursor)
  | 0 => c.fail "EOF while parsing a list"
  | fuel + 1 =>
    let c := c.skipBlank
    match c.rest with
    | [] => c.fail "EOF while parsing a list"
    | ']' :: _ => .ok (read.reverse, c.next)
    | ',' :: _ => do
      let c := c.next.skipBlank
      match c.rest with
      | [] => c.fail "EOF while parsing a value"
      | ']' :: _ => c.failNext "trailing comma"
      | _ =>
        let (s, c) ← readItem c
        readItems (s :: read) c fuel
    | _ => c.failNext "expected \x60,\x60 or \x60]\x60"

/-- The strings of a list behind its opening bracket. -/
def readList (c : Cursor) : Except String (List String × Cursor) :=
  let c := c.skipBlank
  match c.rest with
  | [] => c.fail "EOF while parsing a list"
  | ']' :: _ => .ok ([], c.next)
  | _ => do
    let (s, c) ← readItem c
    readItems [s] c (c.rest.length + 1)

/-- The list of strings that a text writes, or the error that it gives. -/
def readStrings (text : String) : Except String (List String) := do
  let c := (Cursor.mk [] text.toList).skipBlank
  let (items, c) ← match c.rest with
    | '[' :: _ => readList c.next
    | _ => failValue c "a sequence"
  let c := c.skipBlank
  if c.rest.isEmpty then .ok items else c.failNext "trailing characters"

end CodeIndex.Json
