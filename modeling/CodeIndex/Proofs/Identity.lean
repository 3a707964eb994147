import CodeIndex.Chunk.Basic
import CodeIndex.Identity
import CodeIndex.Number.Signed64
import CodeIndex.Proofs.Text.Octets
import CodeIndex.Resource
import CodeIndex.Triple
import Mathlib.Algebra.GroupWithZero.Nat
/-!
# What keys tell

Numbers enter a key as eight octets, so a key tells them as far as they have 64 bits
(`littleEndian_inj`), and what does not fit makes no difference (`littleEndian_mod`). The key of a
chunk tells the line at which it begins (`start_eq_of_chunkKey`), so chunks of one file that begin
at different lines have different identities, unless the hash confuses their keys.

Texts are told where their end can be seen. A text that is followed by a zero octet ends there if
it is plain (`resourceKey_inj`); of as many texts as are plain, all are told (`relationKey_inj`).
Identities of resources have one length, so the keys of chunks and triples tell their resource
without a separator (`eq_of_owns`).
-/

namespace CodeIndex

open CodeIndex.Number

namespace Identity

/-! ### Octets of numbers -/

theorem length_littleEndian (n count : Nat) : (littleEndian n count).length = count := by
  induction count generalizing n with
  | zero => rfl
  | succ count ih => rw [littleEndian, List.length_cons, ih]

/-- Octets that do not fit make no difference. -/
theorem littleEndian_mod (n count : Nat) :
    littleEndian (n % 256 ^ count) count = littleEndian n count := by
  induction count generalizing n with
  | zero => rfl
  | succ count ih =>
    have hlow : n % 256 ^ (count + 1) % 256 = n % 256 :=
      Nat.mod_mod_of_dvd n ⟨256 ^ count, by rw [Nat.pow_succ, Nat.mul_comm]⟩
    have hhigh : n % 256 ^ (count + 1) / 256 = n / 256 % 256 ^ count := by
      rw [Nat.pow_succ, Nat.mul_comm, Nat.mod_mul_right_div_self]
    rw [littleEndian, littleEndian, hlow, hhigh, ih]

/-- Numbers that fit are told by their octets. -/
theorem littleEndian_inj {n m count : Nat} (hn : n < 256 ^ count) (hm : m < 256 ^ count)
    (h : littleEndian n count = littleEndian m count) : n = m := by
  induction count generalizing n m with
  | zero =>
    rw [Nat.pow_zero] at hn hm
    omega
  | succ count ih =>
    rw [littleEndian, littleEndian, List.cons.injEq] at h
    rw [Nat.pow_succ] at hn hm
    have hlow : n % 256 = m % 256 := by
      have := congrArg UInt8.toNat h.1
      simpa using this
    have hhigh : n / 256 = m / 256 := ih (by omega) (by omega) h.2
    omega

/-! ### Keys -/

/-- Octets up to the first zero, and what follows it. -/
theorem append_zero_inj {a a' rest rest' : List UInt8} (ha : 0 ∉ a) (ha' : 0 ∉ a')
    (h : a ++ 0 :: rest = a' ++ 0 :: rest') : a = a' ∧ rest = rest' := by
  induction a generalizing a' with
  | nil =>
    cases a' with
    | nil => exact ⟨rfl, List.tail_eq_of_cons_eq h⟩
    | cons y ys => exact absurd (List.head_eq_of_cons_eq h ▸ List.mem_cons_self) ha'
  | cons x xs ih =>
    cases a' with
    | nil => exact absurd (List.head_eq_of_cons_eq h ▸ List.mem_cons_self) ha
    | cons y ys =>
      obtain ⟨rfl, htail⟩ := List.cons_eq_cons.mp h
      obtain ⟨rfl, hrest⟩ := ih (fun hx => ha (List.mem_cons_of_mem _ hx))
        (fun hy => ha' (List.mem_cons_of_mem _ hy)) htail
      exact ⟨rfl, hrest⟩

/-- The hash confuses none of these keys. -/
def IsCollisionFree (keys : List (List UInt8)) : Prop :=
  ∀ a ∈ keys, ∀ b ∈ keys, ofKey a = ofKey b → a = b

instance (keys : List (List UInt8)) : Decidable (IsCollisionFree keys) :=
  inferInstanceAs (Decidable (∀ a ∈ keys, ∀ b ∈ keys, ofKey a = ofKey b → a = b))

theorem IsCollisionFree.subset {keys keys' : List (List UInt8)} (h : IsCollisionFree keys)
    (hsub : keys' ⊆ keys) : IsCollisionFree keys' :=
  fun a ha b hb => h a (hsub ha) b (hsub hb)

/-- The key of a resource tells its root and its path. -/
theorem resourceKey_inj {root root' path path' : String} (hroot : Text.IsPlain root)
    (hroot' : Text.IsPlain root') (h : resourceKey root path = resourceKey root' path') :
    root = root' ∧ path = path' := by
  rw [resourceKey, resourceKey] at h
  obtain ⟨hroots, hrest⟩ := append_zero_inj (Text.zero_not_mem_octets hroot)
    (Text.zero_not_mem_octets hroot') h
  exact ⟨Text.octets_inj hroots, Text.octets_inj hrest⟩

/-- The key of a chunk tells everything in it, given the length of its resource. -/
theorem chunkKey_inj {resource resource' hash hash' : String} {start start' stop stop' : Nat}
    (hsize : resource.utf8ByteSize = resource'.utf8ByteSize)
    (hstart : start < count64) (hstart' : start' < count64)
    (hstop : stop < count64) (hstop' : stop' < count64)
    (h : chunkKey resource start stop hash = chunkKey resource' start' stop' hash') :
    resource = resource' ∧ start = start' ∧ stop = stop' ∧ hash = hash' := by
  simp only [chunkKey, List.append_assoc] at h
  obtain ⟨hresource, hrest⟩ := List.append_inj h hsize
  obtain ⟨hstarts, hrest⟩ := List.append_inj hrest
    (by rw [length_littleEndian, length_littleEndian])
  obtain ⟨hstops, hhash⟩ := List.append_inj hrest
    (by rw [length_littleEndian, length_littleEndian])
  exact ⟨Text.octets_inj hresource, littleEndian_inj hstart hstart' hstarts,
    littleEndian_inj hstop hstop' hstops, Text.octets_inj hhash⟩

/-- The key of a chunk tells the line at which it begins. -/
theorem start_eq_of_chunkKey {resource hash hash' : String} {start start' stop stop' : Nat}
    (hstart : start < count64) (hstart' : start' < count64)
    (h : chunkKey resource start stop hash = chunkKey resource start' stop' hash') :
    start = start' := by
  simp only [chunkKey, List.append_assoc] at h
  have hrest := List.append_cancel_left h
  have hnumber := (List.append_inj hrest (by rw [length_littleEndian, length_littleEndian])).1
  exact littleEndian_inj hstart hstart' hnumber

/-! ### Closed texts -/

/-- Each text has one zero octet behind it and those that it contains. -/
theorem count_terminated (parts : List String) :
    (terminated parts).count 0
      = parts.length + (parts.map fun part => (Text.octets part).count 0).sum := by
  induction parts with
  | nil => rfl
  | cons part rest ih =>
    rw [terminated, List.flatMap_cons, ← terminated, List.count_append, List.count_append, ih,
      List.map_cons, List.sum_cons, List.length_cons, List.count_singleton_self]
    omega

/-- As many texts with the same octets are plain if one side is: the zero octets add up. -/
theorem plain_of_terminated_eq {parts parts' : List String} (hplain : ∀ p ∈ parts, Text.IsPlain p)
    (hlength : parts.length = parts'.length) (h : terminated parts = terminated parts') :
    ∀ p ∈ parts', Text.IsPlain p := by
  have hnone : (parts.map fun part => (Text.octets part).count 0).sum = 0 := by
    refine List.sum_eq_zero_iff_forall_eq_nat.mpr fun n hn => ?_
    obtain ⟨p, hp, rfl⟩ := List.mem_map.mp hn
    exact List.count_eq_zero.mpr (Text.zero_not_mem_octets (hplain p hp))
  have hcount := congrArg (List.count 0) h
  rw [count_terminated, count_terminated, hnone, hlength] at hcount
  have hnone' : (parts'.map fun part => (Text.octets part).count 0).sum = 0 := by omega
  intro p hp
  by_contra hzero
  have := List.sum_eq_zero_iff_forall_eq_nat.mp hnone' _ (List.mem_map_of_mem hp)
  exact List.count_eq_zero.mp this (Text.zero_mem_octets.mpr hzero)

/-- Plain texts are told by their closed octets. -/
theorem terminated_inj {parts parts' : List String} (hplain : ∀ p ∈ parts, Text.IsPlain p)
    (hplain' : ∀ p ∈ parts', Text.IsPlain p) (h : terminated parts = terminated parts') :
    parts = parts' := by
  induction parts generalizing parts' with
  | nil =>
    cases parts' with
    | nil => rfl
    | cons q rest' => simp [terminated] at h
  | cons p rest ih =>
    cases parts' with
    | nil => simp [terminated] at h
    | cons q rest' =>
      simp only [terminated, List.flatMap_cons, List.append_assoc, List.singleton_append] at h
      obtain ⟨hfirst, hrest⟩ := append_zero_inj
        (Text.zero_not_mem_octets (hplain p List.mem_cons_self))
        (Text.zero_not_mem_octets (hplain' q List.mem_cons_self)) h
      rw [Text.octets_inj hfirst, ih (fun x hx => hplain x (List.mem_cons_of_mem _ hx))
        (fun x hx => hplain' x (List.mem_cons_of_mem _ hx)) hrest]

/-- The key of a relationship tells its texts, if they are plain on one side, and its line. -/
theorem relationKey_inj {parts parts' : List String} {line line' : Nat}
    (hplain : ∀ p ∈ parts, Text.IsPlain p) (hlength : parts.length = parts'.length)
    (h : relationKey parts line = relationKey parts' line') :
    parts = parts' ∧ littleEndian line 8 = littleEndian line' 8 := by
  obtain ⟨hparts, hline⟩ := List.append_inj' h
    (by rw [length_littleEndian, length_littleEndian])
  exact ⟨terminated_inj hplain (plain_of_terminated_eq hplain hlength hparts) hparts, hline⟩

/-- With a common first text it is enough that the others are plain. -/
theorem relationKey_inj_of_head {first : String} {parts parts' : List String} {line line' : Nat}
    (hplain : ∀ p ∈ parts, Text.IsPlain p) (hlength : parts.length = parts'.length)
    (h : relationKey (first :: parts) line = relationKey (first :: parts') line') :
    parts = parts' ∧ littleEndian line 8 = littleEndian line' 8 := by
  have hcons : ∀ parts line, relationKey (first :: parts) line
      = (Text.octets first ++ [0]) ++ relationKey parts line := fun parts line => by
    rw [relationKey, relationKey, terminated, List.flatMap_cons, List.append_assoc]
    rfl
  rw [hcons, hcons] at h
  exact relationKey_inj hplain hlength (List.append_cancel_left h)

/-! ### Owners -/

/-- The key begins with the resource. -/
def Owns (resource : String) (key : List UInt8) : Prop :=
  Text.octets resource <+: key

/-- Of resources as long as one another only one owns a key. -/
theorem eq_of_owns {resource resource' : String} {key : List UInt8}
    (hsize : resource.utf8ByteSize = resource'.utf8ByteSize)
    (h : Owns resource key) (h' : Owns resource' key) : resource = resource' := by
  refine Text.octets_inj (List.IsPrefix.eq_of_length ?_ hsize)
  exact List.prefix_of_prefix_length_le h h' (Nat.le_of_eq hsize)

/-- Identities are as long as one another. -/
theorem utf8ByteSize_ofKey (key : List UInt8) : (ofKey key).utf8ByteSize = 32 := by
  have hlength : ((Digest.Blake3.hash key).take 16).length = 16 := by
    rw [List.length_take, Digest.Blake3.length_hash]
    rfl
  rw [ofKey, Digest.utf8ByteSize_hex, hlength]

/-- What belongs to different resources has different identities, unless the hash confuses a key
of the one with a key of the other. -/
theorem ofKey_ne_of_owns {resource resource' : String} {keys : List (List UInt8)}
    {key key' : List UInt8} (hsize : resource.utf8ByteSize = resource'.utf8ByteSize)
    (hne : resource ≠ resource') (hfree : IsCollisionFree keys) (hmem : key ∈ keys)
    (hmem' : key' ∈ keys) (h : Owns resource key) (h' : Owns resource' key') :
    ofKey key ≠ ofKey key' := fun hid => by
  rw [hfree key hmem key' hmem' hid] at h
  exact hne (eq_of_owns hsize h h')

end Identity

/-! ### Records -/

/-- What identifies a resource. -/
def Resource.key (r : Resource) : List UInt8 :=
  Identity.resourceKey r.repositoryRoot r.relativePath

/-- What identifies a chunk. -/
def Chunk.key (c : Chunk) : List UInt8 :=
  Identity.chunkKey c.resourceId c.startLine c.endLine c.contentHash

/-- A chunk's key belongs to its resource. -/
theorem Chunk.owns_key (c : Chunk) : Identity.Owns c.resourceId c.key := by
  rw [Chunk.key, Identity.chunkKey, List.append_assoc, List.append_assoc]
  exact List.prefix_append _ _

/-- Kinds of relationship have names of their own. -/
theorem Predicate.name_inj {p q : Predicate} (h : p.name = q.name) : p = q := by
  cases p <;> cases q <;> first | rfl | exact absurd h (by decide)

namespace Triple

/-- The texts of a triple's key. -/
def texts (t : Triple) : List String :=
  [t.resourceId, t.subject, t.predicate.name, t.object, t.targetSymbol]

/-- Every text of the triple is plain. -/
def IsPlain (t : Triple) : Prop :=
  ∀ s ∈ t.texts, Text.IsPlain s

instance (t : Triple) : Decidable t.IsPlain :=
  inferInstanceAs (Decidable (∀ s ∈ t.texts, Text.IsPlain s))

/-- A triple's key belongs to its resource. -/
theorem owns_key (t : Triple) : Identity.Owns t.resourceId t.key := by
  rw [key, Identity.relationKey, Identity.terminated, List.flatMap_cons, List.append_assoc,
    List.append_assoc]
  exact List.prefix_append _ _

/-- Of two triples of one resource it is enough that the other texts of one are plain. -/
theorem key_inj_of_resourceId {t u : Triple} (hresource : t.resourceId = u.resourceId)
    (hplain : ∀ s ∈ [t.subject, t.predicate.name, t.object, t.targetSymbol], Text.IsPlain s)
    (ht : t.line < count64) (hu : u.line < count64) (h : t.key = u.key) :
    t.subject = u.subject ∧ t.predicate = u.predicate ∧ t.object = u.object ∧
      t.targetSymbol = u.targetSymbol ∧ t.line = u.line := by
  rw [key, key, ← hresource] at h
  obtain ⟨htexts, hline⟩ := @Identity.relationKey_inj_of_head t.resourceId
    [t.subject, t.predicate.name, t.object, t.targetSymbol]
    [u.subject, u.predicate.name, u.object, u.targetSymbol] _ _ hplain rfl h
  simp only [List.cons.injEq, and_true] at htexts
  obtain ⟨hsubject, hname, hobject, htarget⟩ := htexts
  exact ⟨hsubject, Predicate.name_inj hname, hobject, htarget,
    Identity.littleEndian_inj ht hu hline⟩

/-- The key of a plain triple tells everything in it. -/
theorem key_inj {t u : Triple} (hplain : t.IsPlain) (ht : t.line < count64) (hu : u.line < count64)
    (h : t.key = u.key) :
    t.resourceId = u.resourceId ∧ t.subject = u.subject ∧ t.predicate = u.predicate ∧
      t.object = u.object ∧ t.targetSymbol = u.targetSymbol ∧ t.line = u.line := by
  obtain ⟨htexts, _⟩ := @Identity.relationKey_inj t.texts u.texts _ _ hplain rfl h
  have hresource : t.resourceId = u.resourceId := (List.cons.inj htexts).1
  exact ⟨hresource, key_inj_of_resourceId hresource (fun s hs => hplain s (List.mem_cons_of_mem _ hs))
    ht hu h⟩

end Triple

end CodeIndex
