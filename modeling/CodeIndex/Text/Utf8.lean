/-!
# UTF-8

Decoding bytes that need not be UTF-8, and cutting a text at byte positions.

The decoder reads one octet at a time. Between characters it owes nothing; inside a character it
owes some continuation octets and knows the range that the next of them must lie in (the ranges keep
out overlong forms, surrogates and code points above U+10FFFF). An octet out of that range ends the
character begun so far, which becomes one U+FFFD, and is then read as a first octet: so each maximal
ill-formed part becomes exactly one replacement character.
-/

namespace CodeIndex.Text

/-! ### Octets of a text -/

/-- The UTF-8 octets of a text. -/
def octets (s : String) : List UInt8 :=
  s.toUTF8.data.toList

/-! ### Lossy decoding -/

/-- What stands for an ill-formed part. -/
def replacement : Char := '\ufffd'

/-- A character of which some octets were read: `owed` more are due, the next of them between `low`
and `high`, and `value` collects the code point. -/
structure Partial where
  owed : Nat
  low : UInt8
  high : UInt8
  value : Nat

/-- What one octet means between characters. -/
inductive Lead where
  /-- A whole character. -/
  | whole (c : Char)
  /-- The first octet of a longer character. -/
  | more (p : Partial)
  /-- No character begins like this. -/
  | invalid

/-- The meaning of a first octet. -/
def Lead.ofOctet (b : UInt8) : Lead :=
  let n := b.toNat
  if n < 0x80 then .whole (Char.ofNat n)
  else if n < 0xC2 then .invalid
  else if n < 0xE0 then .more ⟨1, 0x80, 0xBF, n - 0xC0⟩
  else if n == 0xE0 then .more ⟨2, 0xA0, 0xBF, 0⟩
  else if n == 0xED then .more ⟨2, 0x80, 0x9F, 13⟩
  else if n < 0xF0 then .more ⟨2, 0x80, 0xBF, n - 0xE0⟩
  else if n == 0xF0 then .more ⟨3, 0x90, 0xBF, 0⟩
  else if n < 0xF4 then .more ⟨3, 0x80, 0xBF, n - 0xF0⟩
  else if n == 0xF4 then .more ⟨3, 0x80, 0x8F, 4⟩
  else .invalid

/-- The partial character after one more octet of it. -/
def Partial.push (p : Partial) (b : UInt8) : Partial :=
  ⟨p.owed - 1, 0x80, 0xBF, p.value * 64 + (b.toNat - 0x80)⟩

/-- Decodes between characters (`none`) or inside one (`some p`). -/
def decodeFrom : Option Partial → List UInt8 → List Char
  | none, [] => []
  | some _, [] => [replacement]
  | none, b :: rest =>
    match Lead.ofOctet b with
    | .whole c => c :: decodeFrom none rest
    | .more p => decodeFrom (some p) rest
    | .invalid => replacement :: decodeFrom none rest
  | some p, b :: rest =>
    if p.low ≤ b && b ≤ p.high then
      if p.owed == 1 then Char.ofNat (p.push b).value :: decodeFrom none rest
      else decodeFrom (some (p.push b)) rest
    else
      match Lead.ofOctet b with
      | .whole c => replacement :: c :: decodeFrom none rest
      | .more q => replacement :: decodeFrom (some q) rest
      | .invalid => replacement :: replacement :: decodeFrom none rest

/-- The text of a file: UTF-8, with one U+FFFD for each maximal ill-formed part. -/
def decodeLossy (bytes : List UInt8) : String :=
  String.ofList (decodeFrom none bytes)

/-- Every character takes at least one octet, or one is owed to it. -/
theorem length_decodeFrom_le (p : Option Partial) (bytes : List UInt8) :
    (decodeFrom p bytes).length ≤ bytes.length + p.toList.length := by
  fun_induction decodeFrom p bytes <;> simp_all <;> omega

/-- A text has no more characters than the octets it was read from. -/
theorem length_decodeLossy_le (bytes : List UInt8) :
    (decodeLossy bytes).length ≤ bytes.length := by
  have := length_decodeFrom_le none bytes
  simpa [decodeLossy] using this

/-! ### Byte ranges -/

/-- The bytes `start` up to, not including, `stop` of `s`, when they are a text: the range is not
reversed, lies inside `s`, and both ends are character boundaries. -/
def slice? (s : String) (start stop : Nat) : Option String :=
  if start ≤ stop && String.Pos.Raw.isValid s ⟨start⟩ && String.Pos.Raw.isValid s ⟨stop⟩ then
    some (String.Pos.Raw.extract s ⟨start⟩ ⟨stop⟩)
  else
    none

end CodeIndex.Text
