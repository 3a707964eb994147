import CodeIndex.Digest.Blake3
import CodeIndex.Digest.Hex
import CodeIndex.Text.Utf8
/-!
# Identities

Resources, chunks and triples are identified by a hash of what makes them what they are. Each kind
of record first has a key, a sequence of octets; its identity is the first half of the hash of the
key, as 32 hexadecimal digits. The keys are definitions of their own, because two records can only
be confused where their keys agree.

Texts in a key end with a zero octet, except where their length is fixed or they come last; numbers
are eight octets, the lowest first.
-/

namespace CodeIndex.Identity

/-! ### Keys -/

/-- `n` as `count` octets, the lowest first; what does not fit is dropped. -/
def littleEndian (n : Nat) : Nat → List UInt8
  | 0 => []
  | count + 1 => UInt8.ofNat (n % 256) :: littleEndian (n / 256) count

/-- The key of a resource: where it comes from and its path below there. -/
def resourceKey (root path : String) : List UInt8 :=
  Text.octets root ++ 0 :: Text.octets path

/-- The key of a chunk: its resource, its lines and the hash of its text. -/
def chunkKey (resource : String) (start stop : Nat) (contentHash : String) : List UInt8 :=
  Text.octets resource ++ littleEndian start 8 ++ littleEndian stop 8 ++ Text.octets contentHash

/-- Texts one after the other, each closed by a zero octet. -/
def terminated (parts : List String) : List UInt8 :=
  parts.flatMap fun part => Text.octets part ++ [0]

/-- The key of a relationship: its texts in order, and its line. -/
def relationKey (parts : List String) (line : Nat) : List UInt8 :=
  terminated parts ++ littleEndian line 8

/-! ### Hashes -/

/-- The full hash of some octets, as 64 hexadecimal digits. -/
def fingerprint (bytes : List UInt8) : String :=
  Digest.hex (Digest.Blake3.hash bytes)

/-- The identity that belongs to a key: the first half of its hash. -/
def ofKey (key : List UInt8) : String :=
  Digest.hex ((Digest.Blake3.hash key).take 16)

/-- The identity of the file at `path` below `root`. -/
def ofResource (root path : String) : String :=
  ofKey (resourceKey root path)

/-- The identity of a chunk. -/
def ofChunk (resource : String) (start stop : Nat) (contentHash : String) : String :=
  ofKey (chunkKey resource start stop contentHash)

end CodeIndex.Identity
