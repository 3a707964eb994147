import CodeIndex.Number.Decimal
import CodeIndex.Yaml.Node
/-!
# Values of YAML documents

Reading values of a given form out of a document. Numbers and truth values are plain scalars; texts
are scalars of any style. Members that mean nothing are passed over, but one that means something
may be given only once. A list or a section without any content is an empty one.
-/

namespace CodeIndex.Yaml.Reads

/-! ### Faults -/

/-- Why a document does not hold a value of the form that is expected. -/
inductive ReadFault where
  | syntaxProblem (problem : Problem)
  /-- Something else was expected. -/
  | expected (what : String)
  | doubled (member : String)
  | missing (member : String)
  deriving DecidableEq, Repr

/-- The wording of a fault. -/
def ReadFault.message : ReadFault → String
  | syntaxProblem problem => problem.message
  | expected what => "invalid type: expected " ++ what
  | doubled member => "duplicate field \x60" ++ member ++ "\x60"
  | missing member => "missing field \x60" ++ member ++ "\x60"

end CodeIndex.Yaml.Reads

namespace CodeIndex.Yaml

/-- Reads a value from a part of a document. -/
abbrev Reads (α : Type) := Node → Except Reads.ReadFault α

end CodeIndex.Yaml

namespace CodeIndex.Yaml.Reads

/-! ### Scalars -/

/-- A text. -/
def text : Reads String
  | .scalar s _ _ => .ok s
  | _ => .error (.expected "a string")

/-- The largest number that a limit can have. -/
def maxNumber : Nat := 18446744073709551615

/-- The value of a digit in a base of up to sixteen. -/
def digitIn? (base : Nat) (c : Char) : Option Nat :=
  (Digest.hexValue? c).filter (· < base)

/-- The number that some digits write, if there is one and it is not too large. -/
def numberIn? (base : Nat) (digits : List Char) : Option Nat :=
  if digits.isEmpty then none
  else
    (digits.foldlM (fun n c => (digitIn? base c).map (n * base + ·)) 0).filter (· ≤ maxNumber)

/-- The text without a plus sign in front. -/
def withoutPlus (cs : List Char) : List Char :=
  if cs.head? == some '+' then cs.tail else cs

/-- The bases that a number may be written in, each with what comes in front of its digits. -/
def bases : List (List Char × Nat) := [(['0', 'x'], 16), (['0', 'o'], 8), (['0', 'b'], 2)]

/-- The number that a plain scalar writes. Digits behind a leading zero write no number. -/
def number? (cs : List Char) : Option Nat :=
  let digits := withoutPlus cs
  match bases.findSome? fun (front, base) =>
    if front.isPrefixOf digits then numberIn? base (digits.drop 2) else none with
  | some n => some n
  | none =>
    if 1 < digits.length && digits.head? == some '0' && digits.tail.all Char.isDigit then none
    else numberIn? 10 digits

/-- The scalar is plain, or a literal block that is tagged for its kind. -/
def isBare (kind : String) (style : Style) (tag : Option String) : Bool :=
  style == Style.plain || (style == Style.literal && tag == some ("tag:yaml.org,2002:" ++ kind))

/-- A number. -/
def number : Reads Nat
  | .scalar s style tag =>
    match if isBare "int" style tag then number? s.toList else none with
    | some n => .ok n
    | none => .error (.expected "a number")
  | _ => .error (.expected "a number")

/-- A truth value. -/
def truth : Reads Bool
  | .scalar s style tag =>
    if isBare "bool" style tag && ["true", "True", "TRUE"].contains s then .ok true
    else if isBare "bool" style tag && ["false", "False", "FALSE"].contains s then .ok false
    else .error (.expected "a boolean")
  | _ => .error (.expected "a boolean")

/-- The plain texts that stand for nothing. -/
def nulls : List String := ["null", "Null", "NULL", "~"]

/-- A value that may be left empty. -/
def optional {α : Type} (read : Reads α) : Reads (Option α)
  | n@(.scalar s .plain (some tag)) =>
    if tag == "tag:yaml.org,2002:null" then
      if nulls.contains s then .ok none else .error (.expected "null")
    else (read n).map some
  | n@(.scalar s .plain none) => if s == "" || nulls.contains s then .ok none else (read n).map some
  | n => (read n).map some

/-- The tag that a user gives a node to say which case it is. -/
def caseTag? (tag : Option String) : Option String :=
  tag.bind fun t =>
    match t.toList with
    | ['!'] => some "!"
    | '!' :: rest => some (String.ofList rest)
    | _ => none

/-- One of some named cases, by its name or by a tag on nothing. -/
def case {α : Type} (ofName? : String → Option α) : Reads α
  | .scalar s style tag =>
    let name :=
      match caseTag? tag with
      | some name =>
        if style == Style.plain && (s == "" || nulls.contains s) then some name else none
      | none => some s
    match name.bind ofName? with
    | some c => .ok c
    | none => .error (.expected "one of the known names")
  | _ => .error (.expected "one of the known names")

/-! ### Collections -/

/-- The items of a list. -/
def items {α : Type} (read : Reads α) : Reads (List α)
  | .sequence ns => ns.mapM read
  | .scalar "" .plain _ => .ok []
  | _ => .error (.expected "a sequence")

/-- The members of a section by name. -/
abbrev Members := List (String × Node)

/-- The members of a section, of which none in `known` is doubled. -/
def members (known : List String) : Reads Members
  | .mapping entries => do
    let ms ← entries.mapM fun (k, v) => return (← text k, v)
    match known.find? fun name => 1 < ms.countP (·.1 == name) with
    | some name => throw (.doubled name)
    | none => return ms
  | .scalar "" .plain _ => .ok []
  | _ => .error (.expected "a mapping")

/-- The value of a member, or the built-in one when it is left out. -/
def Members.getD {α : Type} (ms : Members) (name : String) (read : Reads α) (builtin : α) :
    Except ReadFault α :=
  match ms.lookup name with
  | some n => read n
  | none => .ok builtin

end CodeIndex.Yaml.Reads
