import CodeIndex.LineIndex
import Mathlib.Algebra.GroupWithZero.Nat
/-!
# What a line index says of its text

The index of a text holds its lines (`lines_ofText`), and its running counts are sums of line
lengths (`getD_chars`). So a slice is the text of its lines (`slice_ofText`), and the estimate that
the counts give for a range is the estimate of the slice (`tokens_ofText`): nothing is lost by not
reading the text again.
-/

namespace CodeIndex

namespace Lines

/-- The lines of a text, each with its newline. -/
def ofText (text : String) : List String :=
  (split text.toList).map String.ofList

/-- The text of the lines `start` to `stop`, counted from one. -/
def between (text : String) (start stop : Nat) : String :=
  String.join (((ofText text).take stop).drop (start - 1))

/-- The lines joined are the text. -/
theorem join_ofText (text : String) : String.join (ofText text) = text := by
  apply String.toList_injective
  rw [String.toList_join, ofText, List.flatMap_map]
  have h := flatten_split text.toList
  rw [List.flatten_eq_flatMap] at h
  simpa using h

/-- Every line has a character. -/
theorem length_ofText_le (text : String) : (ofText text).length ≤ text.length := by
  have hlines : ∀ cs : List Char, (split cs).length ≤ cs.length := by
    intro cs
    induction cs with
    | nil => exact Nat.le_refl _
    | cons c cs ih =>
      rw [split]
      split
      · rw [List.length_cons, List.length_cons]
        omega
      · split
        · rw [List.length_singleton, List.length_cons]
          omega
        · rename_i line lines hsplit
          rw [hsplit, List.length_cons] at ih
          rw [List.length_cons, List.length_cons]
          omega
  have := hlines text.toList
  rwa [String.length_toList, ← List.length_map (f := String.ofList)] at this

/-- Only the empty text has no lines. -/
theorem ofText_eq_nil_iff (text : String) : ofText text = [] ↔ text = "" := by
  constructor
  · intro h
    have hjoin := join_ofText text
    rw [h, String.join_nil] at hjoin
    exact hjoin.symm
  · rintro rfl
    rfl

end Lines

/-! ### Running sums -/

/-- Entry `i` of the running sums adds the first `i` numbers to the start. -/
theorem getElem?_runningSums (total : Nat) (ns : List Nat) (i : Nat) (hi : i ≤ ns.length) :
    (runningSums total ns)[i]? = some (total + (ns.take i).sum) := by
  induction ns generalizing total i with
  | nil =>
    obtain rfl : i = 0 := by simpa using hi
    simp [runningSums]
  | cons n ns ih =>
    rw [runningSums]
    cases i with
    | zero => simp
    | succ i =>
      rw [List.getElem?_cons_succ, ih (total + n) i (by simpa using hi), List.take_succ_cons,
        List.sum_cons, Nat.add_assoc]

namespace LineIndex

/-! ### The index of a text -/

theorem lines_ofText (text : String) : (ofText text).lines.toList = Lines.ofText text := by
  simp [ofText, Lines.ofText]

@[simp] theorem size_ofText (text : String) : (ofText text).size = (Lines.ofText text).length := by
  simp [size, ofText, Lines.ofText]

/-- Entry `i` of the counts is the number of characters in the first `i` lines. -/
theorem getD_chars (text : String) (i : Nat) (hi : i ≤ (Lines.ofText text).length) :
    (ofText text).chars.getD i 0 = (((Lines.ofText text).take i).map String.length).sum := by
  have hlen : ((Lines.split text.toList).map List.length)
      = (Lines.ofText text).map String.length := by
    simp [Lines.ofText, Function.comp_def]
  have hget := getElem?_runningSums 0 ((Lines.ofText text).map String.length) i (by simpa using hi)
  unfold ofText
  simp only [hlen]
  rw [Array.getD_eq_getD_getElem?, List.getElem?_toArray, hget, ← List.map_take]
  simp

/-- A slice of a range inside the text is the text of its lines. -/
theorem slice_ofText (text : String) (start stop : Nat) (hstart : 1 ≤ start)
    (hstop : stop ≤ (ofText text).size) :
    (ofText text).slice start stop = Lines.between text start stop := by
  rw [slice, clampStart, clampStop, Nat.max_eq_left hstart, Nat.min_eq_left hstop,
    Array.toList_extract, lines_ofText, List.extract_eq_take_drop, Lines.between, List.drop_take]

/-- One line is a slice of its own, so an index knows which lines are blank. -/
theorem isBlankLine_ofText (text : String) (i : Nat) (line : String)
    (h : (Lines.ofText text)[i]? = some line) :
    (ofText text).isBlankLine (i + 1) = Text.isBlank line := by
  obtain ⟨hi, rfl⟩ := List.getElem?_eq_some_iff.mp h
  have hsize := size_ofText text
  have hbetween : Lines.between text (i + 1) (i + 1) = (Lines.ofText text)[i] := by
    have htake : ((Lines.ofText text).take (i + 1)).drop i = [(Lines.ofText text)[i]] := by
      rw [List.take_succ_eq_append_getElem hi, List.drop_append_of_le_length (by simp; omega),
        List.drop_eq_nil_of_le (List.length_take_le _ _), List.nil_append]
    rw [Lines.between, Nat.add_sub_cancel, htake, String.join_cons, String.join_nil,
      String.append_empty]
  rw [isBlankLine, slice_ofText text _ _ (by omega) (by omega), hbetween]

/-- A slice is the slice of the range cut down to the text. -/
theorem slice_clamp (index : LineIndex) (start stop : Nat) :
    index.slice start stop = index.slice (clampStart start) (index.clampStop stop) := by
  simp [slice, clampStart, clampStop]

/-- The slice of all lines is the text. -/
theorem slice_all (text : String) {stop : Nat} (hstop : (ofText text).size ≤ stop) :
    (ofText text).slice 1 stop = text := by
  have hsize := size_ofText text
  have hclamp : (ofText text).clampStop stop = (ofText text).size := Nat.min_eq_right hstop
  have htake : (Lines.ofText text).take (ofText text).size = Lines.ofText text :=
    List.take_of_length_le (by omega)
  have hstart : clampStart 1 = 1 := rfl
  rw [slice_clamp, hstart, hclamp, slice_ofText text _ _ (Nat.le_refl _) (Nat.le_refl _),
    Lines.between, htake]
  exact Lines.join_ofText text

/-- A range without lines holds no text. -/
theorem slice_eq_empty (index : LineIndex) (start stop : Nat)
    (h : index.clampStop stop < clampStart start) : index.slice start stop = "" := by
  have hnil : (index.lines.extract (clampStart start - 1) (index.clampStop stop)).toList = [] := by
    rw [Array.toList_extract, List.extract_eq_take_drop, Nat.sub_eq_zero_of_le (by omega),
      List.take_zero]
  rw [slice, hnil, String.join_nil]

/-- The running counts estimate a range as its text would be estimated. -/
theorem tokens_ofText (text : String) (start stop : Nat) :
    (ofText text).tokens start stop = estimateTokens ((ofText text).slice start stop) := by
  rw [slice_clamp, tokens]
  by_cases h : clampStart start ≤ (ofText text).clampStop stop
  · have hstart : 1 ≤ clampStart start := Nat.le_max_right _ _
    have hstop : (ofText text).clampStop stop ≤ (ofText text).size := Nat.min_le_right _ _
    have hsize := size_ofText text
    -- The lines up to the end of the range are those in front of it and those in it.
    have hsplit := List.take_append_drop (clampStart start - 1)
      ((Lines.ofText text).take ((ofText text).clampStop stop))
    rw [List.take_take, Nat.min_eq_left (by omega)] at hsplit
    rw [if_pos h, slice_ofText text _ _ hstart hstop, getD_chars _ _ (by omega),
      getD_chars _ _ (by omega), estimateTokens, Lines.between, String.length_join]
    have hsum := congrArg (fun ls => (ls.map String.length).sum) hsplit
    simp only [List.map_append, List.sum_append] at hsum
    rw [← hsum, Nat.add_sub_cancel_left]
  · rw [if_neg h, slice_eq_empty]
    · rfl
    · unfold clampStop clampStart at *
      omega

end LineIndex

end CodeIndex
