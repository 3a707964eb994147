/-!
# Hexadecimal text

Octets written as pairs of lower-case hexadecimal digits, and the values of digits of either case.
-/

namespace CodeIndex.Digest

/-- The digit for a value below sixteen. -/
def hexDigit (n : Nat) : Char :=
  if n < 10 then Char.ofNat (48 + n) else Char.ofNat (87 + n)

/-- The value of a digit, in lower or upper case. -/
def hexValue? (c : Char) : Option Nat :=
  if c.isDigit then some (c.toNat - '0'.toNat)
  else if 'a' ≤ c && c ≤ 'f' then some (c.toNat - 'a'.toNat + 10)
  else if 'A' ≤ c && c ≤ 'F' then some (c.toNat - 'A'.toNat + 10)
  else none

/-- Two digits for each octet, the high half first. -/
def hexChars : List UInt8 → List Char
  | [] => []
  | b :: rest => hexDigit (b.toNat / 16) :: hexDigit (b.toNat % 16) :: hexChars rest

/-- Octets as hexadecimal text. -/
def hex (bytes : List UInt8) : String :=
  String.ofList (hexChars bytes)

/-- A digit takes one octet. -/
theorem utf8Size_hexDigit {n : Nat} (h : n < 16) : (hexDigit n).utf8Size = 1 := by
  have hall : ∀ n < 16, (hexDigit n).utf8Size = 1 := by decide
  exact hall n h

/-- Hexadecimal text takes two octets for each that it writes. -/
theorem utf8ByteSize_hex (bytes : List UInt8) : (hex bytes).utf8ByteSize = 2 * bytes.length := by
  rw [hex]
  induction bytes with
  | nil => rfl
  | cons b rest ih =>
    have hb := b.toNat_lt
    rw [hexChars, String.ofList_cons, String.ofList_cons, String.utf8ByteSize_append,
      String.utf8ByteSize_append, String.utf8ByteSize_singleton, String.utf8ByteSize_singleton,
      utf8Size_hexDigit (by omega), utf8Size_hexDigit (by omega), ih, List.length_cons]
    omega

end CodeIndex.Digest
