import CodeIndex.Number.Decimal
/-!
# JSON values and their text

Values with objects that keep the order of their members, printed compactly or indented by two
spaces. Only the quote, the backslash and the control characters are escaped; the control characters
that have a short escape use it.
-/

namespace CodeIndex

/-- A JSON value. A number that is not an integer is held by its digits. -/
inductive Json where
  | null
  | bool (b : Bool)
  | int (n : Int)
  | real (text : String)
  | str (s : String)
  | arr (items : List Json)
  | obj (members : List (String × Json))
  deriving Repr, Inhabited

namespace Json

/-! ### Making values -/

/-- A natural number as a value. -/
def nat (n : Nat) : Json := .int n

/-- A text, or null. -/
def strOrNull : Option String → Json
  | none => .null
  | some s => .str s

/-- A natural number, or null. -/
def natOrNull : Option Nat → Json
  | none => .null
  | some n => .nat n

/-- A list of texts. -/
def strs (items : List String) : Json := .arr (items.map .str)

/-- The members of an object sorted by their names. -/
def sortedMembers (members : List (String × Json)) : List (String × Json) :=
  members.mergeSort fun a b => !(compare b.1 a.1).isLT

/-! ### Strings -/

/-- A character inside a JSON string. -/
def escapeChar (c : Char) : List Char :=
  if c == '"' then ['\\', '"']
  else if c == '\\' then ['\\', '\\']
  else if c == '\n' then ['\\', 'n']
  else if c == '\r' then ['\\', 'r']
  else if c == '\t' then ['\\', 't']
  else if c.toNat == 8 then ['\\', 'b']
  else if c.toNat == 12 then ['\\', 'f']
  else if c.toNat < 32 then
    ['\\', 'u', '0', '0', Nat.digitChar (c.toNat / 16), Nat.digitChar (c.toNat % 16)]
  else [c]

/-- A text as a JSON string. -/
def quote (s : String) : String :=
  String.ofList ('"' :: s.toList.flatMap escapeChar ++ ['"'])

/-! ### Compact text -/

mutual

/-- A value without any white space. -/
def compact : Json → String
  | .null => "null"
  | .bool true => "true"
  | .bool false => "false"
  | .int n => Number.intText n
  | .real text => text
  | .str s => quote s
  | .arr [] => "[]"
  | .arr (item :: items) => "[" ++ compact item ++ compactItems items
  | .obj [] => "\x7b\x7d"
  | .obj ((key, value) :: members) =>
    "\x7b" ++ quote key ++ ":" ++ compact value ++ compactMembers members

/-- The items after the first, up to the closing bracket. -/
def compactItems : List Json → String
  | [] => "]"
  | item :: items => "," ++ compact item ++ compactItems items

/-- The members after the first, up to the closing brace. -/
def compactMembers : List (String × Json) → String
  | [] => "\x7d"
  | (key, value) :: members =>
    "," ++ quote key ++ ":" ++ compact value ++ compactMembers members

end

/-! ### Indented text -/

/-- A new line at a depth. -/
def newLine (depth : Nat) : String :=
  String.ofList ('\n' :: List.replicate (2 * depth) ' ')

mutual

/-- A value with one item or member a line; empty lists and objects stay closed. -/
def prettyAt (depth : Nat) : Json → String
  | .arr (item :: items) =>
    "[" ++ newLine (depth + 1) ++ prettyAt (depth + 1) item ++ prettyItems depth items
  | .obj ((key, value) :: members) =>
    "\x7b" ++ newLine (depth + 1) ++ quote key ++ ": " ++ prettyAt (depth + 1) value ++
      prettyMembers depth members
  | .arr [] => "[]"
  | .obj [] => "\x7b\x7d"
  | .null => "null"
  | .bool b => if b then "true" else "false"
  | .int n => Number.intText n
  | .real text => text
  | .str s => quote s

/-- The items after the first, up to the closing bracket at `depth`. -/
def prettyItems (depth : Nat) : List Json → String
  | [] => newLine depth ++ "]"
  | item :: items =>
    "," ++ newLine (depth + 1) ++ prettyAt (depth + 1) item ++ prettyItems depth items

/-- The members after the first, up to the closing brace at `depth`. -/
def prettyMembers (depth : Nat) : List (String × Json) → String
  | [] => newLine depth ++ "\x7d"
  | (key, value) :: members =>
    "," ++ newLine (depth + 1) ++ quote key ++ ": " ++ prettyAt (depth + 1) value ++
      prettyMembers depth members

end

/-- A value indented by two spaces. -/
def pretty (value : Json) : String :=
  value.prettyAt 0

end Json

end CodeIndex
