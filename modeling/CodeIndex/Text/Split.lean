/-!
# Splitting texts

Cutting a list of characters at a separator, and stripping quotes.
-/

namespace CodeIndex.Text

/-- `cs` split around the occurrence of `sep` that begins last; occurrences may overlap. -/
def splitLast? (sep : List Char) : List Char → Option (List Char × List Char)
  | [] => none
  | c :: rest =>
    match splitLast? sep rest with
    | some (before, after) => some (c :: before, after)
    | none =>
      if sep.isPrefixOf (c :: rest) then some ([], (c :: rest).drop sep.length) else none

/-- What stands behind the last `sep`; all of `cs` when there is none. -/
def afterLast (sep cs : List Char) : List Char :=
  match splitLast? sep cs with
  | some (_, after) => after
  | none => cs

/-- A split loses nothing but the separator. -/
theorem append_of_splitLast? {sep cs before after : List Char}
    (h : splitLast? sep cs = some (before, after)) : before ++ sep ++ after = cs := by
  induction cs generalizing before with
  | nil => simp [splitLast?] at h
  | cons c rest ih =>
    unfold splitLast? at h
    split at h
    · rename_i b a heq
      simp only [Option.some.injEq, Prod.mk.injEq] at h
      obtain ⟨rfl, rfl⟩ := h
      simp [ih heq]
    · split at h
      · rename_i hp
        simp only [Option.some.injEq, Prod.mk.injEq] at h
        obtain ⟨rfl, rfl⟩ := h
        obtain ⟨t, ht⟩ := List.isPrefixOf_iff_prefix.1 hp
        rw [← ht]
        simp
      · simp at h

/-- The parts of `cs` between the characters `sep`; there is always at least one. -/
def splitChar (sep : Char) : List Char → List (List Char)
  | [] => [[]]
  | c :: rest =>
    if c = sep then [] :: splitChar sep rest
    else
      match splitChar sep rest with
      | [] => [[c]]
      | part :: parts => (c :: part) :: parts

/-- The parts of `cs` around the first `sep`, if it holds one. -/
def splitFirst? (sep : Char) : List Char → Option (List Char × List Char)
  | [] => none
  | c :: rest =>
    if c = sep then some ([], rest)
    else (splitFirst? sep rest).map fun (before, after) => (c :: before, after)

/-- What stands behind the first `sep` is shorter than the text. -/
theorem length_lt_of_splitFirst? {sep : Char} {cs before after : List Char}
    (h : splitFirst? sep cs = some (before, after)) : after.length < cs.length := by
  induction cs generalizing before with
  | nil => simp [splitFirst?] at h
  | cons c rest ih =>
    unfold splitFirst? at h
    split at h
    · simp only [Option.some.injEq, Prod.mk.injEq] at h
      obtain ⟨-, rfl⟩ := h
      simp
    · obtain ⟨⟨b, a⟩, hsplit, heq⟩ := Option.map_eq_some_iff.1 h
      simp only [Prod.mk.injEq] at heq
      obtain ⟨-, rfl⟩ := heq
      have := ih hsplit
      simp only [List.length_cons]
      omega

/-- What stands behind a front, if the text begins with it. -/
def behind? (front : String) (cs : List Char) : Option (List Char) :=
  if front.toList.isPrefixOf cs then some (cs.drop front.length) else none

/-- The text between two characters `quote`, when `cs` begins and ends with one. -/
def between? (quote : Char) (cs : List Char) : Option (List Char) :=
  match cs with
  | c :: rest =>
    if c = quote && rest.getLast? == some quote then some rest.dropLast else none
  | [] => none

end CodeIndex.Text
