import CodeIndex.Text.Space
import Mathlib.Data.List.DropRight
import Mathlib.Data.List.TakeWhile
/-!
# Trimmed texts

Trimming takes the white space off that a text has around its core, and a text has only one core
that neither begins nor ends with white space (`trim_eq_iff`). A front that is trimmed itself stays
as it is, so behind it only the end of the text is trimmed (`trim_append`).
-/

namespace CodeIndex.Text

/-- The text is `core` with white space around it. -/
def IsAround (core text : String) : Prop :=
  ∃ front back, text = front ++ core ++ back ∧ isBlank front = true ∧ isBlank back = true

/-- The last character is white space. -/
def EndsInSpace (text : String) : Prop :=
  ∃ c ∈ text.toList.getLast?, isSpace c = true

instance (text : String) : Decidable (EndsInSpace text) :=
  decidable_of_iff (text.toList.getLast?.any isSpace = true) (Option.any_eq_true _ _)

/-- The text neither begins nor ends with white space. -/
structure IsTrimmed (text : String) : Prop where
  head : ∀ c ∈ text.toList.head?, isSpace c = false
  last : ¬ EndsInSpace text

instance (text : String) : Decidable (IsTrimmed text) :=
  decidable_of_iff (text.toList.head?.any isSpace = false ∧ ¬ EndsInSpace text)
    ⟨fun h => ⟨(Option.any_eq_false _ _).mp h.1, h.2⟩,
      fun h => ⟨(Option.any_eq_false _ _).mpr h.head, h.last⟩⟩

variable {core front text value : String}

/-! ### White space around a core -/

theorem isBlank_append (s t : String) : isBlank (s ++ t) = (isBlank s && isBlank t) := by
  rw [isBlank, String.toList_append, List.all_append, isBlank, isBlank]

theorem IsAround.refl (text : String) : IsAround text text :=
  ⟨"", "", by simp, rfl, rfl⟩

theorem IsAround.trans (h : IsAround core value) (h' : IsAround value text) :
    IsAround core text := by
  obtain ⟨front, back, rfl, hfront, hback⟩ := h
  obtain ⟨front', back', rfl, hfront', hback'⟩ := h'
  refine ⟨front' ++ front, back ++ back', by simp only [String.append_assoc], ?_, ?_⟩
  · rw [isBlank_append, hfront', hfront, Bool.and_true]
  · rw [isBlank_append, hback, hback', Bool.and_true]

/-! ### White space at the end -/

/-- The text without the white space at its end. -/
def trimEnd (text : String) : String :=
  String.ofList (text.toList.rdropWhile isSpace)

theorem exists_eq_trimEnd_append (text : String) :
    ∃ back, text = trimEnd text ++ back ∧ isBlank back = true := by
  refine ⟨String.ofList (text.toList.rtakeWhile isSpace), ?_, ?_⟩
  · rw [trimEnd, ← String.ofList_append, List.rdropWhile_append_rtakeWhile, String.ofList_toList]
  · rw [isBlank, String.toList_ofList, List.all_eq_true]
    exact fun c => List.mem_rtakeWhile_imp

/-- A front is left alone when the end is trimmed. -/
theorem isAround_append_trimEnd (front text : String) :
    IsAround (front ++ trimEnd text) (front ++ text) := by
  obtain ⟨back, htext, hback⟩ := exists_eq_trimEnd_append text
  refine ⟨"", back, ?_, rfl, hback⟩
  rw [String.empty_append, String.append_assoc, ← htext]

theorem trimEnd_eq_self_iff : trimEnd text = text ↔ ¬ EndsInSpace text := by
  rw [← String.toList_inj, trimEnd, String.toList_ofList, List.rdropWhile_eq_self_iff, EndsInSpace]
  constructor
  · rintro hlast ⟨c, hc, hspace⟩
    obtain ⟨hne, rfl⟩ := List.mem_getLast?_eq_getLast hc
    exact hlast hne hspace
  · intro hnot hne hspace
    exact hnot ⟨_, List.getLast_mem_getLast? hne, hspace⟩

theorem not_endsInSpace_trimEnd (text : String) : ¬ EndsInSpace (trimEnd text) := by
  rw [← trimEnd_eq_self_iff, trimEnd, trimEnd, String.toList_ofList, List.rdropWhile_idempotent]

/-! ### Trimming -/

theorem trim_eq_trimEnd (text : String) :
    trim text = trimEnd (String.ofList (dropSpaces text.toList)) := by
  rw [trim, trimChars, trimEnd, String.toList_ofList]
  rfl

theorem isAround_trim (text : String) : IsAround (trim text) text := by
  have hblank : isBlank (String.ofList (text.toList.takeWhile isSpace)) = true := by
    rw [isBlank, String.toList_ofList, List.all_eq_true]
    exact fun c => List.mem_takeWhile_imp
  have hdrop : IsAround (String.ofList (dropSpaces text.toList)) text := by
    refine ⟨_, "", ?_, hblank, rfl⟩
    rw [String.append_empty, ← String.ofList_append, dropSpaces, List.takeWhile_append_dropWhile,
      String.ofList_toList]
  have hend := isAround_append_trimEnd "" (String.ofList (dropSpaces text.toList))
  rw [String.empty_append, String.empty_append, ← trim_eq_trimEnd] at hend
  exact hend.trans hdrop

theorem isTrimmed_trim (text : String) : IsTrimmed (trim text) where
  head := by
    intro c hc
    rw [trim_eq_trimEnd, trimEnd, String.toList_ofList, String.toList_ofList] at hc
    obtain ⟨back, hback⟩ := List.rdropWhile_prefix isSpace (dropSpaces text.toList)
    have hhead : c ∈ (dropSpaces text.toList).head? :=
      hback ▸ List.mem_head?_append_of_mem_head? hc
    have hnot := List.head?_dropWhile_not isSpace text.toList
    rw [← dropSpaces, hhead] at hnot
    simpa using hnot
  last := by
    rw [trim_eq_trimEnd]
    exact not_endsInSpace_trimEnd _

theorem dropSpaces_append {front cs : List Char} (h : ∀ c ∈ front, isSpace c = true) :
    dropSpaces (front ++ cs) = dropSpaces cs := by
  rw [dropSpaces, dropSpaces, List.dropWhile_append_of_pos h]

theorem dropSpaces_of_head {cs : List Char} (h : ∀ c ∈ cs.head?, isSpace c = false) :
    dropSpaces cs = cs := by
  cases cs with
  | nil => rfl
  | cons c cs => rw [dropSpaces, List.dropWhile_cons_of_neg (by simpa using h c rfl)]

theorem trimEnd_append_of_isBlank (core : String) {back : String} (h : isBlank back = true) :
    trimEnd (core ++ back) = trimEnd core := by
  rw [isBlank, List.all_eq_true] at h
  have hback : ∀ c ∈ back.toList.reverse, isSpace c = true := fun c hc => h c (by simpa using hc)
  rw [trimEnd, String.toList_append, List.rdropWhile, List.reverse_append, ← dropSpaces,
    dropSpaces_append hback]
  rfl

/-- White space around a text that is trimmed is taken off. -/
theorem trim_of_isAround (h : IsAround core text) (hcore : IsTrimmed core) : trim text = core := by
  obtain ⟨front, back, rfl, hfront, hback⟩ := h
  rw [isBlank, List.all_eq_true] at hfront
  have hhead : String.ofList (dropSpaces (front ++ core ++ back).toList)
      = String.ofList (dropSpaces (core ++ back).toList) := by
    rw [String.append_assoc, String.toList_append, dropSpaces_append hfront]
  rw [trim_eq_trimEnd, hhead]
  -- Around an empty core all is white space, which is dropped from the front at once.
  by_cases hempty : core = ""
  · rw [isBlank, List.all_eq_true] at hback
    rw [hempty, String.empty_append, ← List.append_nil back.toList, dropSpaces_append hback]
    rfl
  · have hkept : dropSpaces (core ++ back).toList = (core ++ back).toList := by
      refine dropSpaces_of_head fun c hc => hcore.head c ?_
      rwa [String.toList_append, List.head?_append_of_ne_nil _ (by simpa using hempty)] at hc
    rw [hkept, String.ofList_toList, trimEnd_append_of_isBlank core hback]
    exact trimEnd_eq_self_iff.mpr hcore.last

theorem trim_eq_iff : trim text = core ↔ IsAround core text ∧ IsTrimmed core := by
  constructor
  · rintro rfl
    exact ⟨isAround_trim text, isTrimmed_trim text⟩
  · rintro ⟨haround, hcore⟩
    exact trim_of_isAround haround hcore

theorem trim_eq_empty_iff : trim text = "" ↔ isBlank text = true := by
  rw [trim_eq_iff]
  constructor
  · rintro ⟨⟨front, back, rfl, hfront, hback⟩, -⟩
    rw [String.append_empty, isBlank_append, hfront, hback, Bool.and_true]
  · intro hblank
    exact ⟨⟨text, "", by simp, hblank, rfl⟩, by decide⟩

/-- White space around a text makes no difference. -/
theorem trim_eq_of_isAround (h : IsAround core text) : trim text = trim core :=
  trim_of_isAround ((isAround_trim core).trans h) (isTrimmed_trim core)

theorem isTrimmed_append_trimEnd (hfront : IsTrimmed front) (hne : front ≠ "") (text : String) :
    IsTrimmed (front ++ trimEnd text) := by
  have hchars : front.toList ≠ [] := by simpa using hne
  constructor
  · intro c hc
    rw [String.toList_append, List.head?_append_of_ne_nil _ hchars] at hc
    exact hfront.head c hc
  · rintro ⟨c, hc, hspace⟩
    rw [String.toList_append] at hc
    cases hend : (trimEnd text).toList with
    | nil =>
      rw [hend, List.append_nil] at hc
      exact hfront.last ⟨c, hc, hspace⟩
    | cons d ds =>
      rw [List.getLast?_append_of_ne_nil _ (by simp [hend])] at hc
      exact not_endsInSpace_trimEnd text ⟨c, hc, hspace⟩

/-- Behind a front that is trimmed, only the end is trimmed. -/
theorem trim_append (hfront : IsTrimmed front) (hne : front ≠ "") (text : String) :
    trim (front ++ text) = front ++ trimEnd text :=
  trim_of_isAround (isAround_append_trimEnd front text)
    (isTrimmed_append_trimEnd hfront hne text)

end CodeIndex.Text
