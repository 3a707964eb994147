import CodeIndex.Groups
/-!
# BLAKE3

The unkeyed BLAKE3 hash with its 32-octet output.

The input is cut into chunks of 1024 octets and each chunk into blocks of 64. Compressing the blocks
of a chunk one after another leaves the output of that chunk; two outputs side by side are joined to
their parent's, level by level, and an output without a partner moves up unchanged. The output that
is left is compressed once more with the root flag.
-/

namespace CodeIndex.Digest.Blake3

/-! ### Words -/

/-- Eight words that stand for everything compressed so far. -/
abbrev ChainingValue := Vector UInt32 8

/-- A block of the message as sixteen words. -/
abbrev Block := Vector UInt32 16

/-- The chaining value that every hash begins with. -/
def initialValue : ChainingValue :=
  #v[0x6A09E667, 0xBB67AE85, 0x3C6EF372, 0xA54FF53A, 0x510E527F, 0x9B05688C, 0x1F83D9AB, 0x5BE0CD19]

/-- Marks the first block of a chunk. -/
def chunkStart : UInt32 := 1

/-- Marks the last block of a chunk. -/
def chunkEnd : UInt32 := 2

/-- Marks a block that holds two chaining values. -/
def parentFlag : UInt32 := 4

/-- Marks the last compression of all. -/
def rootFlag : UInt32 := 8

/-- The word of four octets, the lowest first. -/
def wordOfOctets (a b c d : UInt8) : UInt32 :=
  a.toUInt32 ||| (b.toUInt32 <<< 8) ||| (c.toUInt32 <<< 16) ||| (d.toUInt32 <<< 24)

/-- The four octets of a word, the lowest first. -/
def octetsOfWord (w : UInt32) : List UInt8 :=
  [w.toUInt8, (w >>> 8).toUInt8, (w >>> 16).toUInt8, (w >>> 24).toUInt8]

/-- The words of a message; a last word that is not full is padded with zeros. -/
def words : List UInt8 → List UInt32
  | [] => []
  | [a] => [wordOfOctets a 0 0 0]
  | [a, b] => [wordOfOctets a b 0 0]
  | [a, b, c] => [wordOfOctets a b c 0]
  | a :: b :: c :: d :: rest => wordOfOctets a b c d :: words rest

/-- The first `n` words of a list, padded with zeros. -/
def padded (n : Nat) (ws : List UInt32) : Vector UInt32 n :=
  let array := ws.toArray
  Vector.ofFn fun i => array.getD i.val 0

/-! ### Compression -/

/-- `w` turned to the right by `n` bits. -/
def rotateRight (w : UInt32) (n : UInt32) : UInt32 :=
  (w >>> n) ||| (w <<< (32 - n))

/-- Mixes two words of the message into four words of the state. -/
def mix (s : Vector UInt32 16) (a b c d : Fin 16) (x y : UInt32) : Vector UInt32 16 :=
  let va := s[a] + s[b] + x
  let vd := rotateRight (s[d] ^^^ va) 16
  let vc := s[c] + vd
  let vb := rotateRight (s[b] ^^^ vc) 12
  let va := va + vb + y
  let vd := rotateRight (vd ^^^ va) 8
  let vc := vc + vd
  let vb := rotateRight (vb ^^^ vc) 7
  (((s.set a va).set b vb).set c vc).set d vd

/-- One round: the columns of the state, then its diagonals. -/
def round (s : Vector UInt32 16) (m : Block) : Vector UInt32 16 :=
  let s := mix s 0 4 8 12 m[0] m[1]
  let s := mix s 1 5 9 13 m[2] m[3]
  let s := mix s 2 6 10 14 m[4] m[5]
  let s := mix s 3 7 11 15 m[6] m[7]
  let s := mix s 0 5 10 15 m[8] m[9]
  let s := mix s 1 6 11 12 m[10] m[11]
  let s := mix s 2 7 8 13 m[12] m[13]
  mix s 3 4 9 14 m[14] m[15]

/-- The order in which the next round reads the words of the message. -/
def permute (m : Block) : Block :=
  #v[m[2], m[6], m[3], m[10], m[7], m[0], m[4], m[13],
    m[1], m[11], m[12], m[5], m[9], m[14], m[15], m[8]]

/-- `n` rounds, the message permuted between them. -/
def rounds (s : Vector UInt32 16) (m : Block) : Nat → Vector UInt32 16
  | 0 => s
  | n + 1 => rounds (round s m) (permute m) n

/-- A compression that is still to be made: what goes into it. -/
structure Output where
  value : ChainingValue
  block : Block
  counter : UInt64
  size : UInt32
  flags : UInt32

/-- The chaining value of a compression, with further flags set. -/
def Output.compress (o : Output) (flags : UInt32) : ChainingValue :=
  let h := o.value
  let v := initialValue
  let s : Vector UInt32 16 :=
    #v[h[0], h[1], h[2], h[3], h[4], h[5], h[6], h[7], v[0], v[1], v[2], v[3],
      o.counter.toUInt32, (o.counter >>> 32).toUInt32, o.size, o.flags ||| flags]
  let s := rounds s o.block 7
  Vector.ofFn fun i => s[i.val] ^^^ s[i.val + 8]

/-! ### Chunks -/

/-- What is left of a chunk once its blocks but the last are compressed into `value`. -/
def blocksOutput (value : ChainingValue) (counter : UInt64) (flags : UInt32) :
    List (List UInt8) → Output
  | [] => ⟨value, padded 16 [], counter, 0, flags ||| chunkEnd⟩
  | [block] => ⟨value, padded 16 (words block), counter, block.length.toUInt32, flags ||| chunkEnd⟩
  | block :: rest =>
    let o : Output := ⟨value, padded 16 (words block), counter, block.length.toUInt32, flags⟩
    blocksOutput (o.compress 0) counter 0 rest

/-- The output of the chunk with number `counter`. -/
def chunkOutput (counter : Nat) (chunk : List UInt8) : Output :=
  blocksOutput initialValue (UInt64.ofNat counter) chunkStart (groups 64 chunk)

/-! ### The tree of chunks -/

/-- The output above two others. -/
def parentOutput (left right : Output) : Output :=
  let l := left.compress 0
  let r := right.compress 0
  ⟨initialValue, padded 16 (l.toList ++ r.toList), 0, 64, parentFlag⟩

/-- The next level of the tree: neighbours joined in pairs. -/
def joinPairs : List Output → List Output
  | a :: b :: rest => parentOutput a b :: joinPairs rest
  | rest => rest

/-- A level is no longer than the one below it. -/
theorem length_joinPairs_le (level : List Output) : (joinPairs level).length ≤ level.length := by
  fun_induction joinPairs level with
  | case1 a b rest ih => simp; omega
  | case2 rest _ => exact Nat.le_refl _

/-- The output at the top of the tree over `first :: rest`. -/
def topOutput (first : Output) (rest : List Output) : Output :=
  match rest with
  | [] => first
  | second :: rest => topOutput (parentOutput first second) (joinPairs rest)
termination_by rest.length
decreasing_by
  have := length_joinPairs_le rest
  simp; omega

/-- The 32 octets of the hash of `bytes`. -/
def hash (bytes : List UInt8) : List UInt8 :=
  let chunks := groups 1024 bytes
  let first := chunkOutput 0 (chunks.headD [])
  let rest := (chunks.drop 1).mapIdx fun i chunk => chunkOutput (i + 1) chunk
  ((topOutput first rest).compress rootFlag).toList.flatMap octetsOfWord

/-- A hash has 32 octets. -/
theorem length_hash (bytes : List UInt8) : (hash bytes).length = 32 := by
  have h : ∀ ws : List UInt32, (ws.flatMap octetsOfWord).length = 4 * ws.length := by
    intro ws
    induction ws with
    | nil => rfl
    | cons w ws ih => simp [octetsOfWord, ih]; omega
  simp [hash, h]

end CodeIndex.Digest.Blake3
