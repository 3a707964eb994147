import CodeIndex.Proofs.Text.Octets
import Mathlib.Data.String.Basic
/-!
# The order of texts

Texts are compared character by character, and so are their octets: UTF-8 keeps the order
(`octets_lt_octets_iff`). Of two characters neither begins like the other, so their octets part
before either ends (`PartsBelow`), and nothing that follows can change which is the lower one.

A list that is sorted by texts, no two of them the same, ascends strictly in their octets.
-/

namespace CodeIndex.Text

/-! ### Where octets part -/

/-- The octets part before either ends, and the first ones are lower there. -/
inductive PartsBelow : List UInt8 → List UInt8 → Prop
  | here {a b : UInt8} {as bs : List UInt8} (lower : a < b) : PartsBelow (a :: as) (b :: bs)
  | later {a : UInt8} {as bs : List UInt8} (rest : PartsBelow as bs) : PartsBelow (a :: as) (a :: bs)

theorem partsBelow_cons_iff {a b : UInt8} {as bs : List UInt8} :
    PartsBelow (a :: as) (b :: bs) ↔ a < b ∨ a = b ∧ PartsBelow as bs := by
  constructor
  · rintro (lower | rest)
    · exact Or.inl lower
    · exact Or.inr ⟨rfl, rest⟩
  · rintro (lower | ⟨rfl, rest⟩)
    · exact .here lower
    · exact .later rest

/-- What follows does not matter. -/
theorem PartsBelow.append_lt_append {as bs : List UInt8} (h : PartsBelow as bs) (cs ds : List UInt8) :
    as ++ cs < bs ++ ds := by
  induction h with
  | here lower => exact List.Lex.rel lower
  | later _ ih => exact List.Lex.cons ih

/-- The octets of a lower character part from those of a higher one: the first octet tells how many
there are, and more of them for higher characters; between as many, the first that differs
decides. -/
theorem partsBelow_utf8EncodeChar {c d : Char} (h : c < d) :
    PartsBelow (String.utf8EncodeChar c) (String.utf8EncodeChar d) := by
  have hlt : c.val.toNat < d.val.toNat := h
  have hmax : d.val.toNat < 0x110000 := by
    rcases d.valid with hlow | hhigh
    · exact Nat.lt_trans hlow (by decide)
    · exact hhigh.2
  generalize hv : c.val.toNat = v at hlt
  generalize hw : d.val.toNat = w at hlt hmax
  rw [String.utf8EncodeChar, String.utf8EncodeChar, hv, hw]
  -- What is left of an octet without its fixed leading bits is a quotient or a remainder.
  split_ifs <;>
    simp only [partsBelow_cons_iff, UInt8.lt_iff_toNat_lt, ← UInt8.toNat_inj, UInt8.toNat_ofNat'] <;>
    simp (disch := omega) only [Nat.mod_eq_of_lt] <;>
    omega

/-! ### Texts and their octets -/

theorem flatMap_utf8EncodeChar_lt {cs ds : List Char} (h : cs < ds) :
    cs.flatMap String.utf8EncodeChar < ds.flatMap String.utf8EncodeChar := by
  induction h with
  | @nil d ds =>
    have hlong := String.length_utf8EncodeChar d
    rw [List.flatMap_nil, List.flatMap_cons]
    cases hd : String.utf8EncodeChar d with
    | nil =>
      have hpos := d.utf8Size_pos
      rw [hd, List.length_nil] at hlong
      omega
    | cons b bs => exact List.Lex.nil
  | cons _ ih =>
    rw [List.flatMap_cons, List.flatMap_cons]
    exact List.append_left_lt ih
  | rel hlt =>
    rw [List.flatMap_cons, List.flatMap_cons]
    exact (partsBelow_utf8EncodeChar hlt).append_lt_append _ _

theorem octets_lt_octets_of_lt {s t : String} (h : s < t) : octets s < octets t := by
  rw [octets_eq, octets_eq]
  exact flatMap_utf8EncodeChar_lt (String.lt_iff_toList_lt.mp h)

/-- Texts are ordered as their octets are. -/
theorem octets_lt_octets_iff {s t : String} : octets s < octets t ↔ s < t := by
  refine ⟨fun h => ?_, octets_lt_octets_of_lt⟩
  rcases lt_trichotomy s t with hlt | rfl | hgt
  · exact hlt
  · exact absurd h (List.lt_irrefl _)
  · exact absurd (octets_lt_octets_of_lt hgt) (List.lt_asymm h)

/-! ### Sorting by texts -/

variable {α : Type} (key : α → String)

/-- Sorted by texts that are distinct, a list ascends strictly. -/
theorem pairwise_octets_mergeSort {xs : List α} (hnodup : (xs.map key).Nodup) :
    (xs.mergeSort fun a b => !decide (key b < key a)).Pairwise
      fun a b => octets (key a) < octets (key b) := by
  have hsorted : (xs.mergeSort fun a b => !decide (key b < key a)).Pairwise
      fun a b => !decide (key b < key a) := by
    refine List.pairwise_mergeSort ?_ ?_ xs
    · intro a b c hab hbc
      simp only [Bool.not_eq_true', decide_eq_false_iff_not, not_lt] at hab hbc ⊢
      exact hab.trans hbc
    · intro a b
      simp only [Bool.or_eq_true, Bool.not_eq_true', decide_eq_false_iff_not, not_lt]
      exact le_total _ _
  have hdistinct : (xs.mergeSort fun a b => !decide (key b < key a)).Pairwise
      fun a b => key a ≠ key b :=
    List.pairwise_map.mp (((List.mergeSort_perm xs _).map key).nodup_iff.mpr hnodup)
  refine hsorted.imp₂ (fun a b hle hne => ?_) hdistinct
  rw [octets_lt_octets_iff]
  simp only [Bool.not_eq_true', decide_eq_false_iff_not, not_lt] at hle
  exact lt_of_le_of_ne hle hne

end CodeIndex.Text
