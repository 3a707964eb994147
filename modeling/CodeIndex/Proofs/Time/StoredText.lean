import CodeIndex.Proofs.Number.Digits
import CodeIndex.Proofs.Time.Calendar
import CodeIndex.Time.Timestamp
/-!
# Reading back an instant

The text that the database stores of an instant in the years 0 to 9999 reads back as that instant,
with its nanoseconds and a leap second (`parse_storedText`).
-/

namespace CodeIndex.Time

open CodeIndex.Number

/-- A date of the calendar has a month from 1 to 12 and a day from 1 to 31. -/
theorem Date.bounds_of_isValid {d : Date} (h : d.isValid = true) :
    1 ≤ d.month ∧ d.month ≤ 12 ∧ 1 ≤ d.day ∧ d.day ≤ 31 := by
  rw [isValid, Bool.and_eq_true, decide_eq_true_iff, decide_eq_true_iff] at h
  obtain ⟨hlow, hhigh⟩ := h
  simp only [daysInMonth, Bool.or_eq_true, beq_iff_eq, Bool.and_eq_true, decide_eq_true_eq] at hhigh
  split at hhigh
  · split at hhigh <;> omega
  · split at hhigh
    · omega
    · split at hhigh <;> omega

namespace Timestamp

/-- The year of an instant. -/
def year (t : Timestamp) : Int :=
  (Date.ofDays (Int.fdiv t.seconds 86400)).year

/-- An instant with a four-digit year, whose nanoseconds are less than a second, or those of a leap
second at the end of a minute. -/
structure IsStorable (t : Timestamp) : Prop where
  year_nonneg : 0 ≤ t.year
  year_le : t.year ≤ 9999
  nanos_lt : t.nanos < 1000000000 ∨ (t.nanos < 2000000000 ∧ t.seconds % 60 = 59)

/-! ### Numbers in a text -/

theorem length_le_octetCount (cs : List Char) : cs.length ≤ octetCount cs := by
  have hfold : ∀ n, n + cs.length ≤ cs.foldl (fun n c => n + c.utf8Size) n := by
    induction cs with
    | nil => exact fun n => Nat.le_refl _
    | cons c cs ih =>
      intro n
      have := ih (n + c.utf8Size)
      have := c.utf8Size_pos
      rw [List.length_cons, List.foldl_cons]
      omega
  have := hfold 0
  rw [octetCount]
  omega

section Numbers

variable {width n : Nat} (hwidth : 0 < width) (hn : n < 10 ^ width) (tail : List Char)
include hwidth hn

theorem readDigits_paddedDigits :
    readDigits width (paddedDigits width n ++ tail) = .ok (n, tail) := by
  have hlength := length_paddedDigits hwidth hn
  have hcount : ¬ octetCount (paddedDigits width n ++ tail) < width := by
    have := length_le_octetCount (paddedDigits width n ++ tail)
    rw [List.length_append] at this
    omega
  have htake : (paddedDigits width n ++ tail).take width = paddedDigits width n :=
    List.take_left' hlength
  have hdigits : (paddedDigits width n).all isDigit = true :=
    List.all_eq_true.mpr fun c hc => isDigit_of_mem_paddedDigits hc
  rw [readDigits, if_neg hcount, htake, if_pos hdigits, valueFrom_paddedDigits,
    List.drop_left' hlength]

theorem readField_paddedDigits {low high : Nat} (hlow : low ≤ n) (hhigh : n ≤ high) :
    readField width low high (paddedDigits width n ++ tail) = .ok (n, tail) := by
  rw [readField, readDigits_paddedDigits hwidth hn]
  exact if_pos ⟨hlow, hhigh⟩

/-- The digits of a fraction end where no digit follows. -/
theorem readFraction_paddedDigits (hnine : width ≤ 9)
    (htail : tail.takeWhile isDigit = []) :
    readFraction ('.' :: (paddedDigits width n ++ tail)) = .ok (n * tenTo (9 - width), tail) := by
  have hlength := length_paddedDigits hwidth hn
  have hdigits : ∀ c ∈ paddedDigits width n, isDigit c = true :=
    fun c hc => isDigit_of_mem_paddedDigits hc
  have htake : (paddedDigits width n ++ tail).takeWhile isDigit = paddedDigits width n := by
    rw [List.takeWhile_append_of_pos hdigits, htail, List.append_nil]
  have hdrop : (paddedDigits width n ++ tail).dropWhile isDigit = tail := by
    have hsplit := List.takeWhile_append_dropWhile (p := isDigit) (l := tail)
    rw [htail, List.nil_append] at hsplit
    rw [List.dropWhile_append_of_pos hdigits, hsplit]
  cases hcs : paddedDigits width n with
  | nil =>
    rw [hcs] at hlength
    exact absurd hlength (Nat.ne_of_lt hwidth)
  | cons c cs =>
    rw [hcs] at hlength htake hdrop
    have hvalue := valueFrom_paddedDigits width n
    rw [hcs] at hvalue
    rw [List.cons_append] at htake hdrop ⊢
    simp only [readFraction, htake, hdrop, List.isEmpty_cons, Bool.false_eq_true, if_false,
      List.take_of_length_le (Nat.le_trans (Nat.le_of_eq hlength) hnine), hlength, hvalue]

end Numbers

/-! ### Parts of the stored text -/

theorem readChar_cons {c : Char} {wanted : List Char} (h : wanted.contains c = true)
    (tail : List Char) : readChar wanted (c :: tail) = .ok ((), tail) :=
  if_pos h

/-- The zone that the database writes. -/
def storedZone : List Char := ['+', '0', '0', ':', '0', '0']

theorem readZone_storedZone : readZone storedZone = .ok (0, []) := by
  have hdigits : ∀ tail, readZoneDigits ('0' :: '0' :: tail) = .ok ((0, 0), tail) := by
    intro tail
    have hcount : ¬ octetCount ('0' :: '0' :: tail) < 2 := by
      have := length_le_octetCount ('0' :: '0' :: tail)
      rw [List.length_cons, List.length_cons] at this
      omega
    rw [readZoneDigits, if_neg hcount]
    rfl
  unfold readZone storedZone
  simp only [bind, Except.bind, hdigits, readChar_cons (by decide : [':'].contains ':' = true)]
  rfl

theorem readFraction_dot {width n : Nat} (hwidth : 0 < width) (hnine : width ≤ 9)
    (hn : n < 10 ^ width) :
    readFraction (("." ++ paddedText width n).toList ++ storedZone)
      = .ok (n * tenTo (9 - width), storedZone) := by
  -- The dot is a text of its own, so both texts are taken apart.
  rw [String.toList_append, paddedText, String.toList_ofList, String.toList_ofList,
    List.append_assoc]
  exact readFraction_paddedDigits hwidth hn _ hnine (by decide)

theorem readFraction_fractionText {nanos : Nat} (h : nanos < 1000000000) :
    readFraction ((fractionText nanos).toList ++ storedZone) = .ok (nanos, storedZone) := by
  have hmilli : tenTo (9 - 3) = 1000000 := by decide
  have hmicro : tenTo (9 - 6) = 1000 := by decide
  have hnano : tenTo (9 - 9) = 1 := by decide
  rw [fractionText]
  split
  · rename_i hzero
    rw [hzero]
    rfl
  split
  · rw [readFraction_dot (by decide) (by decide) (by omega), hmilli]
    congr 2
    omega
  split
  · rw [readFraction_dot (by decide) (by decide) (by omega), hmicro]
    congr 2
    omega
  · rw [readFraction_dot (by decide) (by decide) (by omega), hnano, Nat.mul_one]

/-- The stored text by its parts. -/
theorem toList_storedText {t : Timestamp} (hlow : 0 ≤ t.year) (hhigh : t.year ≤ 9999) :
    let date := Date.ofDays (Int.fdiv t.seconds 86400)
    let second := (Int.fmod t.seconds 86400).toNat
    t.storedText.toList =
      paddedDigits 4 t.year.natAbs ++ '-' :: (paddedDigits 2 date.month ++ '-' ::
        (paddedDigits 2 date.day ++ 'T' :: (paddedDigits 2 (second / 3600) ++ ':' ::
          (paddedDigits 2 (second / 60 % 60) ++ ':' ::
            (paddedDigits 2 (second % 60 + t.nanos / 1000000000) ++
              ((fractionText (t.nanos % 1000000000)).toList ++ storedZone)))))) := by
  intro date second
  have hyear : yearText date.year = paddedText 4 t.year.natAbs := if_pos ⟨hlow, hhigh⟩
  rw [storedText, render]
  simp only [String.toList_append]
  show (yearText date.year).toList ++ _ ++ (paddedText 2 date.month).toList ++ _ ++ _ ++ _ ++ _ ++
    _ ++ _ ++ _ ++ _ ++ _ ++ _ = _
  rw [hyear]
  simp only [paddedText, String.toList_ofList, List.append_assoc]
  rfl

/-- What the reader makes of the parts of a text, one after the other. -/
theorem parse_of_parts {s : String} {year month day hour minute second nanos : Nat}
    (hyear : year < 10000) (hmonth : 1 ≤ month ∧ month ≤ 12) (hday : 1 ≤ day ∧ day ≤ 31)
    (hhour : hour ≤ 23) (hminute : minute ≤ 59) (hsecond : second ≤ 60)
    (hnanos : nanos < 1000000000) (hvalid : (Date.mk year month day).isValid = true)
    (hs : s.toList =
      paddedDigits 4 year ++ '-' :: (paddedDigits 2 month ++ '-' :: (paddedDigits 2 day ++ 'T' ::
        (paddedDigits 2 hour ++ ':' :: (paddedDigits 2 minute ++ ':' :: (paddedDigits 2 second ++
          ((fractionText nanos).toList ++ storedZone))))))) :
    parse s = .ok
      { seconds := (Date.mk year month day).toDays * 86400 +
          ((hour * 3600 + minute * 60 + (second - second / 60) : Nat) : Int) - 0
        nanos := nanos + second / 60 * 1000000000 } := by
  have htwo : 0 < 2 := by decide
  rw [parse, hs]
  simp only [bind, Except.bind, readDigits_paddedDigits (by decide : 0 < 4) hyear,
    readChar_cons (by decide : ['-'].contains '-' = true),
    readChar_cons (by decide : ['T', 't', ' '].contains 'T' = true),
    readChar_cons (by decide : [':'].contains ':' = true),
    readField_paddedDigits htwo (by omega : month < 10 ^ 2) _ hmonth.1 hmonth.2,
    readField_paddedDigits htwo (by omega : day < 10 ^ 2) _ hday.1 hday.2,
    readField_paddedDigits htwo (by omega : hour < 10 ^ 2) _ (Nat.zero_le _) hhour,
    readField_paddedDigits htwo (by omega : minute < 10 ^ 2) _ (Nat.zero_le _) hminute,
    readField_paddedDigits htwo (by omega : second < 10 ^ 2) _ (Nat.zero_le _) hsecond,
    readFraction_fractionText hnanos, readZone_storedZone, hvalid]
  rfl

/-- The stored text of an instant reads back as the instant. -/
theorem parse_storedText {t : Timestamp} (h : t.IsStorable) : parse t.storedText = .ok t := by
  obtain ⟨hlow, hhigh, hnanos⟩ := h
  have hdays : Int.fdiv t.seconds 86400 = t.seconds / 86400 :=
    Int.fdiv_eq_ediv_of_nonneg _ (by decide)
  have hsecond : Int.fmod t.seconds 86400 = t.seconds % 86400 :=
    Int.fmod_eq_emod_of_nonneg _ (by decide)
  have hvalid := Date.isValid_ofDays (Int.fdiv t.seconds 86400)
  have htoDays := Date.toDays_ofDays (Int.fdiv t.seconds 86400)
  obtain ⟨hmonth, hmonth', hday, hday'⟩ := Date.bounds_of_isValid hvalid
  have hyear : (t.year.natAbs : Int) = t.year := Int.natAbs_of_nonneg hlow
  have hdate : Date.ofDays (Int.fdiv t.seconds 86400)
      = ⟨(t.year.natAbs : Nat), (Date.ofDays (Int.fdiv t.seconds 86400)).month,
          (Date.ofDays (Int.fdiv t.seconds 86400)).day⟩ := by
    rw [hyear]
    rfl
  have htext := toList_storedText hlow hhigh
  rw [hdate] at hvalid htoDays
  rw [parse_of_parts (by omega) ⟨hmonth, hmonth'⟩ ⟨hday, hday'⟩ (by omega) (by omega) (by omega)
    (by omega) hvalid htext, htoDays, hdays, hsecond]
  -- A leap second is written as the second 60, and no other second reaches that.
  have hleap : ((t.seconds % 86400).toNat % 60 + t.nanos / 1000000000) / 60
      = t.nanos / 1000000000 := by omega
  have hseconds : t.seconds / 86400 * 86400 +
      (((t.seconds % 86400).toNat / 3600 * 3600 + (t.seconds % 86400).toNat / 60 % 60 * 60 +
        ((t.seconds % 86400).toNat % 60 + t.nanos / 1000000000 - t.nanos / 1000000000) : Nat) : Int)
      - 0 = t.seconds := by omega
  have hsum : t.nanos % 1000000000 + t.nanos / 1000000000 * 1000000000 = t.nanos := by omega
  rw [hleap, hseconds, hsum]

end Timestamp

end CodeIndex.Time
