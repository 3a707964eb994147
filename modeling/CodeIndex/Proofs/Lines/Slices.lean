import CodeIndex.LineOffsets
import CodeIndex.Proofs.Lines.Greedy
import CodeIndex.Proofs.Text.Octets
/-!
# Slices of a text

Which lines a text has is said by a grammar (`AreLines`): each line has its newline at the end and
no other, and only the last may lack it. It leaves no choice (`areLines_iff`).

`slice_exact`: for any range, also one that is reversed or goes beyond the text, a slice is the
lines of the range one after the other, and it is what stands in the text from the octet where the
first of them begins to the octet where the last ends. The counts of the index estimate it as its
text would be estimated.
-/

namespace CodeIndex

namespace Lines

/-! ### What the lines of a text are -/

/-- The text consists of the lines. -/
inductive AreLines : List String → String → Prop where
  | nil : AreLines [] ""
  /-- A last line without a newline. -/
  | unclosed {line : String} : line ≠ "" → '\n' ∉ line.toList → AreLines [line] line
  | cons {line rest : String} {lines : List String} : '\n' ∉ line.toList → AreLines lines rest →
      AreLines ((line ++ "\n") :: lines) (line ++ "\n" ++ rest)

theorem split_eq_singleton {cs : List Char} (hne : cs ≠ []) (h : '\n' ∉ cs) : split cs = [cs] := by
  induction cs with
  | nil => exact absurd rfl hne
  | cons c cs ih =>
    rw [List.mem_cons, not_or] at h
    rw [split, if_neg (Ne.symm h.1)]
    by_cases hcs : cs = []
    · rw [hcs]
      rfl
    · rw [ih hcs h.2]

/-- The first line ends with the first newline. -/
theorem split_append {line : List Char} (h : '\n' ∉ line) (rest : List Char) :
    split (line ++ '\n' :: rest) = (line ++ ['\n']) :: split rest := by
  induction line with
  | nil => rw [List.nil_append, split, if_pos rfl, List.nil_append]
  | cons c line ih =>
    rw [List.mem_cons, not_or] at h
    rw [List.cons_append, split, if_neg (Ne.symm h.1), ih h.2, List.cons_append]

theorem ofText_append {line : String} (h : '\n' ∉ line.toList) (rest : String) :
    ofText (line ++ "\n" ++ rest) = (line ++ "\n") :: ofText rest := by
  have hnewline : "\n".toList = ['\n'] := rfl
  rw [ofText, String.toList_append, String.toList_append, hnewline, List.append_assoc,
    List.singleton_append, split_append h, List.map_cons, String.ofList_append,
    String.ofList_toList, ofText]

theorem ofText_of_not_mem {text : String} (hne : text ≠ "") (h : '\n' ∉ text.toList) :
    ofText text = [text] := by
  have hchars : text.toList ≠ [] := fun hnil => hne (String.toList_eq_nil_iff.mp hnil)
  rw [ofText, split_eq_singleton hchars h, List.map_singleton, String.ofList_toList]

theorem AreLines.eq_ofText {lines : List String} {text : String} (h : AreLines lines text) :
    lines = ofText text := by
  induction h with
  | nil => rfl
  | unclosed hne hline => rw [ofText_of_not_mem hne hline]
  | cons hline _ ih => rw [ofText_append hline, ih]

theorem areLines_ofText (text : String) : AreLines (ofText text) text := by
  induction hlength : text.length using Nat.strong_induction_on generalizing text with
  | _ n ih =>
    by_cases hmem : '\n' ∈ text.toList
    · obtain ⟨line, rest, hchars, hline⟩ := List.eq_append_cons_of_mem hmem
      have htext : text = String.ofList line ++ "\n" ++ String.ofList rest := by
        rw [← String.toList_inj, hchars]
        simp
      have hline : '\n' ∉ (String.ofList line).toList := by rwa [String.toList_ofList]
      rw [htext, ofText_append hline]
      refine .cons hline (ih _ ?_ _ rfl)
      rw [← hlength, htext, String.length_append, String.length_append]
      have hnewline : "\n".length = 1 := rfl
      omega
    · by_cases hempty : text = ""
      · rw [hempty]
        exact .nil
      · rw [ofText_of_not_mem hempty hmem]
        exact .unclosed hempty hmem

/-- A text has its lines in one way. -/
theorem areLines_iff {lines : List String} {text : String} :
    AreLines lines text ↔ lines = ofText text := by
  refine ⟨AreLines.eq_ofText, ?_⟩
  rintro rfl
  exact areLines_ofText text

/-- The line with a number; outside the text there is nothing. -/
def lineAt (text : String) (number : Nat) : String :=
  (ofText text).getD (number - 1) ""

/-- The lines `first` to `last` one after the other. -/
theorem between_eq_join {text : String} {first last : Nat} (hfirst : 1 ≤ first)
    (hlast : last ≤ (ofText text).length) :
    between text first last
      = String.join ((List.range' first (last + 1 - first)).map (lineAt text)) := by
  have hlines : ((ofText text).take last).drop (first - 1)
      = (List.range' first (last + 1 - first)).map (lineAt text) := by
    refine List.ext_getElem ?_ fun i hi hi' => ?_
    · rw [List.length_drop, List.length_take, List.length_map, List.length_range']
      omega
    · rw [List.length_map, List.length_range'] at hi'
      rw [List.getElem_drop, List.getElem_take, List.getElem_map, List.getElem_range', lineAt,
        List.getD_eq_getElem?_getD, List.getElem?_eq_getElem (by omega), Option.getD_some]
      congr 1
      omega
  rw [between, hlines]

/-! ### Octets -/

theorem utf8ByteSize_join (ss : List String) :
    (String.join ss).utf8ByteSize = (ss.map String.utf8ByteSize).sum := by
  induction ss with
  | nil => rfl
  | cons s ss ih =>
    rw [String.join_cons, String.utf8ByteSize_append, ih, List.map_cons, List.sum_cons]

end Lines

namespace LineOffsets

theorem offsets_ofText (text : String) :
    (ofText text).offsets
      = (runningSums 0 ((Lines.ofText text).map String.utf8ByteSize)).toArray := by
  rw [ofText, Lines.ofText, List.map_map]
  rfl

theorem length_runningSums (total : Nat) (ns : List Nat) :
    (runningSums total ns).length = ns.length + 1 := by
  induction ns generalizing total with
  | nil => rfl
  | cons n ns ih => rw [runningSums, List.length_cons, ih, List.length_cons]

@[simp] theorem size_ofText (text : String) : (ofText text).size = (Lines.ofText text).length := by
  rw [size, offsets_ofText, List.size_toArray, length_runningSums, List.length_map,
    Nat.add_sub_cancel]

/-- Entry `i` counts the octets of the first `i` lines. -/
theorem getD_offsets (text : String) {i : Nat} (hi : i ≤ (Lines.ofText text).length) :
    (ofText text).offsets.getD i 0
      = (String.join ((Lines.ofText text).take i)).utf8ByteSize := by
  have hget := getElem?_runningSums 0 ((Lines.ofText text).map String.utf8ByteSize) i
    (by rwa [List.length_map])
  rw [offsets_ofText, Array.getD_eq_getD_getElem?, List.getElem?_toArray, hget, Option.getD_some,
    Nat.zero_add, ← List.map_take, ← Lines.utf8ByteSize_join]

/-- What is cut out of the text is the slice. -/
theorem cut?_ofText (text : String) (start stop : Nat) :
    (ofText text).cut? start stop = some ((LineIndex.ofText text).slice start stop) := by
  rw [LineIndex.slice_clamp, LineIndex.clampStop, LineIndex.size_ofText, Lines.slice_eq_between,
    cut?, size_ofText]
  have hfirst : 1 ≤ LineIndex.clampStart start := Nat.le_max_right _ _
  have hlast : min stop (Lines.ofText text).length ≤ (Lines.ofText text).length :=
    Nat.min_le_right _ _
  generalize LineIndex.clampStart start = first at *
  generalize min stop (Lines.ofText text).length = last at *
  by_cases hle : first ≤ last
  · -- The text is what stands in front of the range, the range, and what stands behind it.
    have hrange : String.join ((Lines.ofText text).take (first - 1))
        ++ Lines.between text first last = String.join ((Lines.ofText text).take last) := by
      have htake : (Lines.ofText text).take (first - 1)
          = ((Lines.ofText text).take last).take (first - 1) := by
        rw [List.take_take, Nat.min_eq_left (by omega)]
      rw [Lines.between, ← String.join_append, htake, List.take_append_drop]
    have htext : String.join ((Lines.ofText text).take (first - 1))
        ++ Lines.between text first last ++ String.join ((Lines.ofText text).drop last) = text := by
      rw [hrange, ← String.join_append, List.take_append_drop, Lines.join_ofText]
    have hcut := Text.slice?_append (String.join ((Lines.ofText text).take (first - 1)))
      (Lines.between text first last) (String.join ((Lines.ofText text).drop last))
    rw [htext, hrange, ← getD_offsets text (by omega), ← getD_offsets text hlast] at hcut
    rw [if_pos hle]
    exact hcut
  · rw [if_neg hle, Lines.between, List.drop_eq_nil_of_le, String.join_nil]
    exact Nat.le_trans (List.length_take_le _ _) (by omega)

end LineOffsets

/-- **Slices agree with the text.** A slice is the lines of its range one after the other, cut out
of the text between characters, and its count of tokens is the estimate for it. Slices that meet
make up the slice of both ranges, and that of all lines is the text. -/
theorem slice_exact (text : String) :
    let index := LineIndex.ofText text
    let lines := Lines.ofText text
    (∀ lines', Lines.AreLines lines' text ↔ lines' = lines) ∧
    index.size = lines.length ∧
    (∀ start stop,
      let first := max start 1
      let last := min stop lines.length
      index.slice start stop
        = String.join ((List.range' first (last + 1 - first)).map (Lines.lineAt text)) ∧
      (LineOffsets.ofText text).cut? start stop = some (index.slice start stop) ∧
      index.tokens start stop = estimateTokens (index.slice start stop)) ∧
    (∀ a b c, a ≤ b + 1 → b ≤ c →
      index.slice a b ++ index.slice (b + 1) c = index.slice a c) ∧
    index.slice 1 index.size = text := by
  intro index lines
  refine ⟨fun lines' => Lines.areLines_iff, LineIndex.size_ofText text, fun start stop => ?_,
    fun a b c => index.slice_append, LineIndex.slice_all text (Nat.le_refl _)⟩
  refine ⟨?_, LineOffsets.cut?_ofText text start stop, LineIndex.tokens_ofText text start stop⟩
  have hlast : min stop lines.length ≤ lines.length := Nat.min_le_right _ _
  rw [← Lines.between_eq_join (Nat.le_max_right _ _) hlast, ← Lines.slice_eq_between,
    LineIndex.slice_clamp, LineIndex.clampStop, LineIndex.size_ofText]
  rfl

end CodeIndex
