import CodeIndex.Text.Utf8
import Mathlib.Data.List.Basic
import Mathlib.Data.String.Basic
/-!
# Octets of a text

A text is told by its octets (`octets_inj`). The octet zero stands for the character zero and is
part of no other character (`zero_not_mem_octets`), so it can close a text that is plain.

A range of octets is a text where it begins and ends between characters (`isSome_slice?_iff`); it is
the part of the text that takes up these octets (`slice?_append`).
-/

namespace CodeIndex.Text

/-! ### A text is told by its octets -/

theorem octets_inj {s t : String} (h : octets s = octets t) : s = t :=
  String.toByteArray_inj.mp (ByteArray.ext (Array.toList_inj.mp h))

/-- The octets of a text are those of its characters. -/
theorem octets_eq (s : String) : octets s = s.toList.flatMap String.utf8EncodeChar := by
  have h : s.toByteArray = s.toList.utf8Encode := by
    rw [← String.toByteArray_ofList, String.ofList_toList]
  rw [octets, String.toUTF8, h, List.utf8Encode, List.toList_data_toByteArray]

/-- A text is read back from its octets. -/
theorem fromUTF8?_octets (s : String) : String.fromUTF8? ⟨(octets s).toArray⟩ = some s := by
  have hbytes : (⟨(octets s).toArray⟩ : ByteArray) = s.toByteArray := by
    rw [octets, Array.toArray_toList]
    rfl
  rw [hbytes, String.fromUTF8?, dif_pos s.isValidUTF8]
  rfl

/-! ### Plain texts -/

/-- The text does not contain the character zero. -/
def IsPlain (s : String) : Prop :=
  '\x00' ∉ s.toList

instance (s : String) : Decidable (IsPlain s) :=
  inferInstanceAs (Decidable (¬ _))

/-- An octet that is written from a positive number below 256 is not zero. -/
theorem zero_ne_ofNat {n : Nat} (hpos : 0 < n) (hlt : n < 256) : (0 : UInt8) ≠ UInt8.ofNat n := by
  intro h
  have hnat := congrArg UInt8.toNat h
  rw [UInt8.toNat_ofNat, UInt8.toNat_ofNat', Nat.zero_mod, Nat.mod_eq_of_lt hlt] at hnat
  omega

/-- Only the character zero has an octet zero: the octets of longer characters have their highest
bit set. -/
theorem eq_nul_of_zero_mem {c : Char} (h : 0 ∈ String.utf8EncodeChar c) : c = '\x00' := by
  by_contra hne
  have hpos : 0 < c.val.toNat := by
    refine Nat.pos_of_ne_zero fun hzero => hne (Char.ext (UInt32.toNat_inj.mp ?_))
    exact hzero
  rw [String.utf8EncodeChar] at h
  split at h
  · rw [List.mem_singleton] at h
    exact zero_ne_ofNat hpos (by omega) h
  split at h
  · rw [List.mem_cons, List.mem_singleton] at h
    rcases h with h | h <;> exact zero_ne_ofNat (by omega) (by omega) h
  split at h
  · rw [List.mem_cons, List.mem_cons, List.mem_singleton] at h
    rcases h with h | h | h <;> exact zero_ne_ofNat (by omega) (by omega) h
  · rw [List.mem_cons, List.mem_cons, List.mem_cons, List.mem_singleton] at h
    rcases h with h | h | h | h <;> exact zero_ne_ofNat (by omega) (by omega) h

theorem zero_mem_octets {s : String} : 0 ∈ octets s ↔ ¬ IsPlain s := by
  rw [IsPlain, not_not, octets_eq, List.mem_flatMap]
  constructor
  · rintro ⟨c, hc, hzero⟩
    rwa [← eq_nul_of_zero_mem hzero]
  · intro h
    exact ⟨_, h, by decide⟩

theorem zero_not_mem_octets {s : String} (h : IsPlain s) : 0 ∉ octets s :=
  fun hzero => zero_mem_octets.mp hzero h

theorem IsPlain.append {s t : String} (hs : IsPlain s) (ht : IsPlain t) : IsPlain (s ++ t) := by
  rw [IsPlain, String.toList_append, List.mem_append]
  exact fun h => h.elim hs ht

/-- Plain texts joined with a plain separator are plain. -/
theorem isPlain_intercalate {separator : String} (hseparator : IsPlain separator)
    {parts : List String} (hparts : ∀ s ∈ parts, IsPlain s) :
    IsPlain (separator.intercalate parts) := by
  induction parts with
  | nil =>
    rw [String.intercalate_nil]
    decide
  | cons s rest ih =>
    have hs := hparts s List.mem_cons_self
    have hrest := ih fun u hu => hparts u (List.mem_cons_of_mem _ hu)
    cases rest with
    | nil => rwa [String.intercalate_singleton]
    | cons u rest =>
      rw [String.intercalate_cons_cons]
      exact (hs.append hseparator).append hrest

/-! ### Ranges of octets -/

/-- Some characters of the text take up the first `n` octets. -/
def IsBoundary (s : String) (n : Nat) : Prop :=
  ∃ front back, s = front ++ back ∧ front.utf8ByteSize = n

theorem isValid_iff_isBoundary {s : String} {n : Nat} :
    String.Pos.Raw.isValid s ⟨n⟩ = true ↔ IsBoundary s n := by
  rw [String.Pos.Raw.isValid_eq_true_iff, String.Pos.Raw.isValid_iff_exists_append]
  constructor
  · rintro ⟨front, back, hs, hn⟩
    exact ⟨front, back, hs, (congrArg String.Pos.Raw.byteIdx hn).symm⟩
  · rintro ⟨front, back, hs, rfl⟩
    exact ⟨front, back, hs, rfl⟩

instance (s : String) (n : Nat) : Decidable (IsBoundary s n) :=
  decidable_of_iff _ isValid_iff_isBoundary

/-- A range can be cut out if it is not reversed and both ends stand between characters. -/
theorem isSome_slice?_iff {s : String} {start stop : Nat} :
    (slice? s start stop).isSome ↔ start ≤ stop ∧ IsBoundary s start ∧ IsBoundary s stop := by
  rw [slice?]
  by_cases h : start ≤ stop ∧ IsBoundary s start ∧ IsBoundary s stop
  · have hvalid := h
    rw [← isValid_iff_isBoundary, ← isValid_iff_isBoundary] at hvalid
    simp [h, hvalid]
  · have hvalid := h
    rw [← isValid_iff_isBoundary, ← isValid_iff_isBoundary] at hvalid
    rw [if_neg (by simpa [and_assoc] using hvalid)]
    simp [h]

/-- A part of a text is cut out at the octets where it begins and ends. -/
theorem slice?_append (front mid back : String) :
    slice? (front ++ mid ++ back) front.utf8ByteSize (front ++ mid).utf8ByteSize = some mid := by
  have hsize : ∀ s : String, String.utf8Len s.toList = s.utf8ByteSize := by
    intro s
    rw [← String.utf8ByteSize_ofList, String.ofList_toList]
  have hcut := String.extract_of_valid front.toList mid.toList back.toList
  rw [hsize, hsize, ← String.utf8ByteSize_append, String.ofList_append, String.ofList_append,
    String.ofList_toList, String.ofList_toList, String.ofList_toList] at hcut
  have hfront : IsBoundary (front ++ mid ++ back) front.utf8ByteSize :=
    ⟨front, mid ++ back, String.append_assoc, rfl⟩
  have hmid : IsBoundary (front ++ mid ++ back) (front ++ mid).utf8ByteSize :=
    ⟨front ++ mid, back, rfl, rfl⟩
  have hle : front.utf8ByteSize ≤ (front ++ mid).utf8ByteSize := by
    rw [String.utf8ByteSize_append]
    exact Nat.le_add_right _ _
  rw [slice?, isValid_iff_isBoundary.mpr hfront, isValid_iff_isBoundary.mpr hmid,
    decide_eq_true hle, hcut]
  rfl

end CodeIndex.Text
