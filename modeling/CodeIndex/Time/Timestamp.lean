import CodeIndex.Number.Decimal
import CodeIndex.Time.Calendar
/-!
# Instants and their RFC 3339 text

An instant in UTC with nanoseconds. It is written with as many fraction digits as it needs out of
none, three, six and nine, and the zone is written `Z` in records and `+00:00` in the database.

Reading takes any zone and gives the instant. The reader goes through the text once and stops at
the first fault, so its error says which kind of fault comes first: a field out of its range, a
character that cannot stand there, a text that ends too early or goes on too long.
-/

namespace CodeIndex.Time

open CodeIndex.Number

/-- An instant: seconds since the start of 1970 and nanoseconds after that second. A leap second is
the second before it with a billion nanoseconds or more. -/
structure Timestamp where
  seconds : Int
  nanos : Nat
  deriving DecidableEq, Repr, Inhabited

namespace Timestamp

/-- The start of 1970. -/
def epoch : Timestamp := ⟨0, 0⟩

/-! ### Writing -/

/-- A year: four digits, or a sign and at least four digits outside the years 0 to 9999. -/
def yearText (year : Int) : String :=
  if 0 ≤ year ∧ year ≤ 9999 then paddedText 4 year.natAbs
  else (if year < 0 then "-" else "+") ++ paddedText 4 year.natAbs

/-- The fraction of a second in the shortest of the four widths. -/
def fractionText (nanos : Nat) : String :=
  if nanos = 0 then ""
  else if nanos % 1000000 = 0 then "." ++ paddedText 3 (nanos / 1000000)
  else if nanos % 1000 = 0 then "." ++ paddedText 6 (nanos / 1000)
  else "." ++ paddedText 9 nanos

/-- The instant in UTC, followed by the text for the zone. -/
def render (zone : String) (t : Timestamp) : String :=
  let date := Date.ofDays (Int.fdiv t.seconds 86400)
  let second := (Int.fmod t.seconds 86400).toNat
  let leap := t.nanos / 1000000000
  yearText date.year ++ "-" ++ paddedText 2 date.month ++ "-" ++ paddedText 2 date.day ++ "T" ++
    paddedText 2 (second / 3600) ++ ":" ++ paddedText 2 (second / 60 % 60) ++ ":" ++
    paddedText 2 (second % 60 + leap) ++ fractionText (t.nanos % 1000000000) ++ zone

/-- The text of an instant in a record. -/
def recordText (t : Timestamp) : String := t.render "Z"

/-- The text of an instant in the database. -/
def storedText (t : Timestamp) : String := t.render "+00:00"

/-! ### Reading -/

/-- Why a text is no timestamp. -/
inductive ReadFault where
  | outOfRange
  | invalid
  | tooShort
  | tooLong
  deriving DecidableEq, Repr

/-- The wording of a fault. -/
def ReadFault.message : ReadFault → String
  | .outOfRange => "input is out of range"
  | .invalid => "input contains invalid characters"
  | .tooShort => "premature end of input"
  | .tooLong => "trailing input"

/-- A step of the reader: a value and the rest of the text. -/
abbrev Reader (α : Type) := List Char → Except ReadFault (α × List Char)

/-- The number of octets in the text that is left. -/
def octetCount (cs : List Char) : Nat :=
  cs.foldl (fun n c => n + c.utf8Size) 0

/-- Exactly `width` digits. -/
def readDigits (width : Nat) : Reader Nat := fun cs =>
  if octetCount cs < width then .error .tooShort
  else if (cs.take width).all isDigit then .ok (valueFrom 0 (cs.take width), cs.drop width)
  else .error .invalid

/-- Exactly `width` digits with a value between `low` and `high`. -/
def readField (width low high : Nat) : Reader Nat := fun cs => do
  let (n, cs) ← readDigits width cs
  if low ≤ n ∧ n ≤ high then .ok (n, cs) else .error .outOfRange

/-- One of the characters `wanted`. -/
def readChar (wanted : List Char) : Reader Unit := fun cs =>
  match cs with
  | [] => .error .tooShort
  | c :: rest => if wanted.contains c then .ok ((), rest) else .error .invalid

/-- The nanoseconds of a fraction, if there is one; digits after the ninth are dropped. -/
def readFraction : Reader Nat := fun cs =>
  match cs with
  | '.' :: rest =>
    match rest with
    | [] => .error .tooShort
    | _ =>
      let ds := rest.takeWhile isDigit
      if ds.isEmpty then .error .invalid
      else
        let kept := ds.take 9
        .ok (valueFrom 0 kept * tenTo (9 - kept.length), rest.dropWhile isDigit)
  | _ => .ok (0, cs)

/-- Two characters that are digits, read as octets: a text of fewer than two octets is too short. -/
def readZoneDigits : Reader (Nat × Nat) := fun cs =>
  if octetCount cs < 2 then .error .tooShort
  else
    match cs with
    | a :: b :: rest =>
      if isDigit a && isDigit b then .ok ((digitValue a, digitValue b), rest) else .error .invalid
    | _ => .error .invalid

/-- The distance of the zone from UTC in seconds. -/
def readZone : Reader Int := fun cs =>
  match cs with
  | [] => .error .tooShort
  | c :: rest =>
    if c == 'Z' || c == 'z' then .ok (0, rest)
    else if c == '+' || c == '-' || c == '−' then do
      let ((h1, h2), rest) ← readZoneDigits rest
      let ((), rest) ← readChar [':'] rest
      let ((m1, m2), rest) ← readZoneDigits rest
      if 6 ≤ m1 then .error .outOfRange
      else
        let distance := (h1 * 10 + h2) * 3600 + (m1 * 10 + m2) * 60
        if 86340 < distance then .error .outOfRange
        else .ok (if c == '+' then (distance : Int) else -(distance : Int), rest)
    else .error .invalid

/-- The instant that a text writes. -/
def parse (s : String) : Except ReadFault Timestamp := do
  let cs := s.toList
  let (year, cs) ← readDigits 4 cs
  let ((), cs) ← readChar ['-'] cs
  let (month, cs) ← readField 2 1 12 cs
  let ((), cs) ← readChar ['-'] cs
  let (day, cs) ← readField 2 1 31 cs
  let ((), cs) ← readChar ['T', 't', ' '] cs
  let (hour, cs) ← readField 2 0 23 cs
  let ((), cs) ← readChar [':'] cs
  let (minute, cs) ← readField 2 0 59 cs
  let ((), cs) ← readChar [':'] cs
  let (second, cs) ← readField 2 0 60 cs
  let (nanos, cs) ← readFraction cs
  let (zone, cs) ← readZone cs
  if !cs.isEmpty then .error .tooLong
  else
    let date : Date := ⟨year, month, day⟩
    if !date.isValid then .error .outOfRange
    else
      -- The second 60 is the second before it with a billion nanoseconds more.
      let leap := second / 60
      let inDay : Int := ((hour * 3600 + minute * 60 + (second - leap) : Nat) : Int)
      .ok ⟨date.toDays * 86400 + inDay - zone, nanos + leap * 1000000000⟩

end Timestamp

end CodeIndex.Time
