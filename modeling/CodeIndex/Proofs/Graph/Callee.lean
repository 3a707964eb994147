import CodeIndex.Graph.Symbols
import CodeIndex.Proofs.Text.Octets
import CodeIndex.Proofs.Text.Split
import Mathlib.Data.List.TakeWhile
import Mathlib.Order.Lattice.Nat
/-!
# Where a callee is cut

A callee is cut at the separator that begins last, be it a dot or a double colon, and separators may
overlap (`IsLastCut`). Two searches find it, one for each separator: they never meet at the same
place, so the one that comes out further behind is the last of both.

`callee_split_exact` says for every text whether it is split and into what, and that what an import
is put in front of is the end of the callee from where the identifier at its beginning ends.
-/

namespace CodeIndex.Graph

/-! ### The last separator -/

/-- What stands between a receiver and its member. -/
inductive IsSeparator : String → Prop where
  | dot : IsSeparator "."
  | colons : IsSeparator "::"

/-- A separator occurs in the text. -/
def HasSeparator (text : String) : Prop :=
  ∃ front separator back, IsSeparator separator ∧ text = front ++ separator ++ back

/-- The callee is cut at a separator, and none begins behind that one. -/
structure IsLastCut (callee receiver separator member : String) : Prop where
  isSeparator : IsSeparator separator
  append : callee = receiver ++ separator ++ member
  last : ∀ front other back, IsSeparator other → callee = front ++ other ++ back →
    front.length ≤ receiver.length

theorem IsSeparator.length_pos {separator : String} (h : IsSeparator separator) :
    0 < separator.length := by
  cases h <;> decide

variable {callee receiver separator member : String}

/-- Among the separators of a text there is a last one. -/
theorem exists_isLastCut (h : HasSeparator callee) :
    ∃ receiver separator member, IsLastCut callee receiver separator member := by
  let starts : Set Nat := {n | ∃ front separator back,
    IsSeparator separator ∧ callee = front ++ separator ++ back ∧ front.length = n}
  obtain ⟨front, separator, back, hseparator, hcallee⟩ := h
  -- No separator begins behind the end of the text, so there is a greatest place.
  have hbounded : BddAbove starts := by
    refine ⟨callee.length, ?_⟩
    rintro _ ⟨front, separator, back, -, rfl, rfl⟩
    rw [String.length_append, String.length_append, Nat.add_assoc]
    exact Nat.le_add_right _ _
  have hne : starts.Nonempty := ⟨front.length, front, separator, back, hseparator, hcallee, rfl⟩
  obtain ⟨receiver, last, member, hlast, happend, hlength⟩ := Nat.sSup_mem hne hbounded
  refine ⟨receiver, last, member, hlast, happend, ?_⟩
  intro front other back hother hcallee
  rw [hlength]
  exact le_csSup hbounded ⟨front, other, back, hother, hcallee, rfl⟩

/-- The member holds no separator. -/
theorem IsLastCut.not_hasSeparator (h : IsLastCut callee receiver separator member) :
    ¬ HasSeparator member := by
  rintro ⟨front, other, back, hother, rfl⟩
  have hlength := h.last (receiver ++ separator ++ front) other back hother (by
    rw [h.append]
    simp only [String.append_assoc])
  rw [String.length_append, String.length_append] at hlength
  have hpos := h.isSeparator.length_pos
  omega

/-! ### Two searches -/

theorem eq_append_iff {front separator back : String} :
    callee = front ++ separator ++ back ↔
      front.toList ++ separator.toList ++ back.toList = callee.toList := by
  rw [← String.toList_inj, String.toList_append, String.toList_append, eq_comm]

theorem not_infix_of_not_hasSeparator (h : ¬ HasSeparator callee)
    (hseparator : IsSeparator separator) : ¬ separator.toList <:+: callee.toList := by
  rintro ⟨front, back, hcallee⟩
  refine h ⟨String.ofList front, separator, String.ofList back, hseparator, ?_⟩
  rwa [eq_append_iff, String.toList_ofList, String.toList_ofList]

theorem IsLastCut.length_le (h : IsLastCut callee receiver separator member) {other : String}
    (hother : IsSeparator other) {front back : List Char}
    (hcallee : front ++ other.toList ++ back = callee.toList) :
    front.length ≤ receiver.toList.length := by
  have hlength := h.last (String.ofList front) other (String.ofList back) hother (by
    rwa [eq_append_iff, String.toList_ofList, String.toList_ofList])
  rwa [String.length_ofList, ← String.length_toList] at hlength

/-- A dot and a double colon do not begin at the same place. -/
theorem length_ne_of_append_eq {front back front' back' : List Char}
    (h : front ++ ['.'] ++ back = front' ++ [':', ':'] ++ back') :
    front.length ≠ front'.length := by
  intro hlength
  rw [List.append_assoc, List.append_assoc] at h
  obtain ⟨-, hrest⟩ := List.append_inj h hlength
  simp at hrest

/-- Without a separator a callee is a plain name. -/
theorem splitCallee?_of_not_hasSeparator (h : ¬ HasSeparator callee) :
    splitCallee? callee = none := by
  have hdot : Text.splitLast? ['.'] callee.toList = none :=
    (Text.splitLast?_eq_none_iff (by simp)).mpr (not_infix_of_not_hasSeparator h .dot)
  have hcolons : Text.splitLast? [':', ':'] callee.toList = none :=
    (Text.splitLast?_eq_none_iff (by simp)).mpr (not_infix_of_not_hasSeparator h .colons)
  rw [splitCallee?, splitChars?, cutChars?, hdot, hcolons]
  rfl

/-- The last separator of both kinds is found, and counts if there is something on both sides. -/
theorem splitCallee?_of_isLastCut (h : IsLastCut callee receiver separator member) :
    splitCallee? callee
      = if receiver = "" ∨ member = "" then none else some (receiver, member) := by
  have hcallee := eq_append_iff.mp h.append
  have hfound : Text.splitLast? separator.toList callee.toList
      = some (receiver.toList, member.toList) := by
    have hne : separator.toList ≠ [] := by
      rw [← List.length_pos_iff, String.length_toList]
      exact h.isSeparator.length_pos
    exact (Text.splitLast?_eq_some_iff hne).mpr
      ⟨hcallee, fun _ _ hother => h.length_le h.isSeparator hother⟩
  have hcut : cutChars? callee.toList = some (receiver.toList, member.toList) := by
    cases h.isSeparator with
    | dot =>
      have hdot : Text.splitLast? ['.'] callee.toList = some (receiver.toList, member.toList) :=
        hfound
      rw [cutChars?, hdot]
      cases hpath : Text.splitLast? [':', ':'] callee.toList with
      | none => rfl
      | some path =>
        -- The double colon begins no later, and not at the same place.
        have happend := Text.append_of_splitLast? hpath
        have hle := h.length_le .colons happend
        have hne := length_ne_of_append_eq (hcallee.trans happend.symm)
        exact if_pos (Nat.lt_of_le_of_ne hle hne.symm)
    | colons =>
      have hpath : Text.splitLast? [':', ':'] callee.toList
          = some (receiver.toList, member.toList) := hfound
      rw [cutChars?, hpath]
      cases hdot : Text.splitLast? ['.'] callee.toList with
      | none => rfl
      | some dot =>
        -- The dot begins no later, and a tie would go to the double colon.
        have hle := h.length_le .dot (Text.append_of_splitLast? hdot)
        exact if_neg (Nat.not_lt.mpr hle)
  rw [splitCallee?, splitChars?, hcut]
  by_cases hempty : receiver = "" ∨ member = ""
  · rw [if_pos hempty]
    rcases hempty with rfl | rfl <;> simp
  · rw [if_neg hempty]
    rw [not_or] at hempty
    simp [hempty.1, hempty.2]

/-- A callee is a plain name if it holds no separator, or the last one begins or ends it. -/
theorem splitCallee?_eq_none_iff :
    splitCallee? callee = none ↔ ¬ HasSeparator callee ∨
      ∃ receiver separator member, IsLastCut callee receiver separator member ∧
        (receiver = "" ∨ member = "") := by
  by_cases hoccurs : HasSeparator callee
  · obtain ⟨receiver, separator, member, hcut⟩ := exists_isLastCut hoccurs
    have hsplit := splitCallee?_of_isLastCut hcut
    constructor
    · intro hnone
      refine Or.inr ⟨receiver, separator, member, hcut, ?_⟩
      by_contra hparts
      rw [hnone, if_neg hparts] at hsplit
      cases hsplit
    · rintro (hnot | ⟨_, _, _, hcut, hempty⟩)
      · exact absurd hoccurs hnot
      · rw [splitCallee?_of_isLastCut hcut, if_pos hempty]
  · exact iff_of_true (splitCallee?_of_not_hasSeparator hoccurs) (Or.inl hoccurs)

/-- Otherwise it is cut there, into parts that are not empty. -/
theorem splitCallee?_eq_some_iff :
    splitCallee? callee = some (receiver, member) ↔
      receiver ≠ "" ∧ member ≠ "" ∧ ∃ separator, IsLastCut callee receiver separator member := by
  constructor
  · intro h
    by_cases hoccurs : HasSeparator callee
    · obtain ⟨front, separator, back, hcut⟩ := exists_isLastCut hoccurs
      rw [splitCallee?_of_isLastCut hcut] at h
      split at h
      · cases h
      · rename_i hparts
        rw [not_or] at hparts
        obtain ⟨rfl, rfl⟩ := Prod.mk.inj (Option.some.inj h)
        exact ⟨hparts.1, hparts.2, separator, hcut⟩
    · rw [splitCallee?_of_not_hasSeparator hoccurs] at h
      cases h
  · rintro ⟨hreceiver, hmember, separator, hcut⟩
    rw [splitCallee?_of_isLastCut hcut, if_neg (not_or.mpr ⟨hreceiver, hmember⟩)]

/-! ### The identifier at the beginning -/

/-- No identifier holds a separator of callees. -/
theorem isIdentifierChar_separators :
    isIdentifierChar '.' = false ∧ isIdentifierChar ':' = false := by
  unfold isIdentifierChar Text.isAlphanumeric Text.inRanges
  -- The kernel is slow at walking the table as an array.
  rw [← Array.any_toList, ← Array.any_toList]
  decide +kernel

theorem exists_append_receiverRoot (receiver : String) :
    ∃ tail, receiver = receiverRoot receiver ++ tail := by
  refine ⟨String.ofList (receiver.toList.dropWhile isIdentifierChar), String.toList_injective ?_⟩
  simp [receiverRoot, List.takeWhile_append_dropWhile]

theorem not_mem_receiverRoot {c : Char} (h : isIdentifierChar c = false) (receiver : String) :
    c ∉ (receiverRoot receiver).toList := by
  intro hmem
  rw [receiverRoot, String.toList_ofList] at hmem
  have hchar := List.mem_takeWhile_imp hmem
  rw [h] at hchar
  cases hchar

/-- A callee with a receiver begins with the identifier that the receiver begins with. -/
theorem exists_rest_of_splitCallee? (h : splitCallee? callee = some (receiver, member)) :
    ∃ rest, callee = receiverRoot receiver ++ rest := by
  obtain ⟨-, -, separator, hcut⟩ := splitCallee?_eq_some_iff.mp h
  obtain ⟨tail, htail⟩ := exists_append_receiverRoot receiver
  refine ⟨tail ++ (separator ++ member), ?_⟩
  rw [← String.append_assoc, ← String.append_assoc, ← htail]
  exact hcut.append

theorem drop_of_eq_append {root rest : String} (h : callee = root ++ rest) :
    String.ofList (callee.toList.drop root.length) = rest := by
  rw [h, String.toList_append, ← String.length_toList, List.drop_left, String.ofList_toList]

/-- What a receiver is imported as stands in front of the rest of the callee. -/
theorem SymbolTable.resolveReceiver_of_bindingsOf (table : SymbolTable) {only rest : String}
    (hbound : table.bindingsOf (receiverRoot receiver) = [only])
    (hcallee : callee = receiverRoot receiver ++ rest) :
    table.resolveReceiver callee receiver member = ⟨only ++ rest, .importedReceiver⟩ := by
  rw [resolveReceiver, hbound, ← drop_of_eq_append hcallee]

/-- **Where a callee is cut.** A text is no receiver with a member just if it holds no separator or
the last one begins or ends it; otherwise it is cut there, and the member holds none. The identifier
at the beginning of the receiver holds none either. It is the text up to an octet between
characters, and behind that octet, where something imported is put in front, the last separator and
the member are left. -/
theorem callee_split_exact (callee : String) :
    (splitCallee? callee = none ↔ ¬ HasSeparator callee ∨
      ∃ receiver separator member, IsLastCut callee receiver separator member ∧
        (receiver = "" ∨ member = "")) ∧
    ∀ receiver member, splitCallee? callee = some (receiver, member) →
      receiver ≠ "" ∧ member ≠ "" ∧ ¬ HasSeparator member ∧
      ∃ separator tail, IsLastCut callee receiver separator member ∧
        let root := receiverRoot receiver
        let rest := tail ++ separator ++ member
        receiver = root ++ tail ∧ '.' ∉ root.toList ∧ ':' ∉ root.toList ∧
        Text.slice? callee 0 root.utf8ByteSize = some root ∧
        Text.slice? callee root.utf8ByteSize callee.utf8ByteSize = some rest ∧
        ∀ (table : SymbolTable) only, table.bindingsOf root = [only] →
          table.resolveReceiver callee receiver member = ⟨only ++ rest, .importedReceiver⟩ := by
  refine ⟨splitCallee?_eq_none_iff, fun receiver member hsplit => ?_⟩
  obtain ⟨hreceiver, hmember, separator, hcut⟩ := splitCallee?_eq_some_iff.mp hsplit
  obtain ⟨tail, htail⟩ := exists_append_receiverRoot receiver
  refine ⟨hreceiver, hmember, hcut.not_hasSeparator, separator, tail, hcut, ?_⟩
  intro root rest
  have hcallee : callee = root ++ rest := by
    rw [hcut.append]
    simp only [rest, ← String.append_assoc, root, ← htail]
  have hfront : Text.slice? callee 0 root.utf8ByteSize = some root := by
    have hslice := Text.slice?_append "" root rest
    rwa [String.empty_append, ← hcallee] at hslice
  have hback : Text.slice? callee root.utf8ByteSize callee.utf8ByteSize = some rest := by
    have hslice := Text.slice?_append root rest ""
    rwa [String.append_empty, ← hcallee] at hslice
  obtain ⟨hdot, hcolon⟩ := isIdentifierChar_separators
  exact ⟨htail, not_mem_receiverRoot hdot receiver, not_mem_receiverRoot hcolon receiver, hfront,
    hback, fun table only hbound => table.resolveReceiver_of_bindingsOf hbound hcallee⟩

end CodeIndex.Graph
