import CodeIndex.Path
import CodeIndex.Proofs.Text.Split
/-!
# Paths made of names

A name is what an entry of a directory may be called (`IsName`): it has no slash, and it is neither
empty nor one of the two dot names. A path that is made of names is told by them: they are its
components (`components_intercalate`), so two such paths differ when their names do.

The extension of a path is that of its last name: what stands behind the last dot, unless that dot
comes first (`extensionOfName?_eq_some_iff`).
-/

namespace CodeIndex.Path

open CodeIndex.Text

/-- The text can be the name of an entry. -/
def IsName (name : String) : Prop :=
  name ≠ "" ∧ name ≠ "." ∧ name ≠ ".." ∧ '/' ∉ name.toList

instance (name : String) : Decidable (IsName name) :=
  inferInstanceAs (Decidable (_ ∧ _))

/-! ### Components -/

/-- The names between the slashes of a path are those it was made of. -/
theorem parts_intercalate {names : List String} (hne : names ≠ [])
    (h : ∀ name ∈ names, '/' ∉ name.toList) : parts ("/".intercalate names) = names := by
  rw [parts]
  induction names with
  | nil => exact absurd rfl hne
  | cons name rest ih =>
    obtain ⟨hname, hrest⟩ := List.forall_mem_cons.mp h
    cases rest with
    | nil =>
      rw [String.intercalate_singleton, splitChar_of_not_mem hname, List.map_singleton,
        String.ofList_toList]
    | cons next rest =>
      have hslash : "/".toList = ['/'] := rfl
      rw [String.intercalate_cons_cons, String.toList_append, String.toList_append, hslash,
        List.append_assoc, List.singleton_append, splitChar_append hname, List.map_cons,
        String.ofList_toList, ih (List.cons_ne_nil _ _) hrest]

/-- Paths made of names are the same only if the names are. -/
theorem intercalate_inj {names names' : List String} (hne : names ≠ []) (hne' : names' ≠ [])
    (h : ∀ name ∈ names, '/' ∉ name.toList) (h' : ∀ name ∈ names', '/' ∉ name.toList)
    (heq : "/".intercalate names = "/".intercalate names') : names = names' := by
  rw [← parts_intercalate hne h, heq, parts_intercalate hne' h']

/-- A path at the end of another one may be taken apart. -/
theorem intercalate_append_intercalate (front : List String) {names : List String}
    (hne : names ≠ []) :
    "/".intercalate (front ++ ["/".intercalate names]) = "/".intercalate (front ++ names) := by
  by_cases hfront : front = []
  · rw [hfront, List.nil_append, List.nil_append, String.intercalate_singleton]
  · rw [String.intercalate_append_of_ne_nil hfront (List.cons_ne_nil _ _),
      String.intercalate_append_of_ne_nil hfront hne, String.intercalate_singleton]

theorem not_isAbsolute_of_parts {path : String} (h : "" ∉ parts path) : isAbsolute path = false := by
  rw [isAbsolute]
  cases hpath : path.toList with
  | nil => rfl
  | cons c cs =>
    by_cases hc : c = '/'
    · -- A slash in front has nothing in front of it.
      rw [parts, hpath, hc, splitChar, if_pos rfl] at h
      exact absurd List.mem_cons_self h
    · simpa using hc

theorem components_intercalate {names : List String} (h : ∀ name ∈ names, IsName name) :
    components ("/".intercalate names) = names := by
  cases names with
  | nil => decide +kernel
  | cons name rest =>
    have hparts : parts ("/".intercalate (name :: rest)) = name :: rest :=
      parts_intercalate (List.cons_ne_nil _ _) fun n hn => (h n hn).2.2.2
    have hrelative : isAbsolute ("/".intercalate (name :: rest)) = false := by
      refine not_isAbsolute_of_parts fun hempty => ?_
      rw [hparts] at hempty
      exact (h "" hempty).1 rfl
    have hnamed : (name :: rest).filter (fun part => part != "" && part != ".") = name :: rest := by
      refine List.filter_eq_self.mpr fun n hn => ?_
      rw [Bool.and_eq_true, bne_iff_ne, bne_iff_ne]
      exact ⟨(h n hn).1, (h n hn).2.1⟩
    have hdot : ((name :: rest).head? == some ".") = false := by
      simpa using (h name List.mem_cons_self).2.1
    rw [components, hparts, hnamed, hrelative, hdot]
    rfl

/-- The last name is the name of the file. -/
theorem fileName?_intercalate {front : List String} {name : String}
    (h : ∀ n ∈ front ++ [name], IsName n) :
    fileName? ("/".intercalate (front ++ [name])) = some name := by
  obtain ⟨-, hdot, hdots, hslash⟩ := h name (by simp)
  have hroot : name ≠ "/" := by
    rintro rfl
    exact hslash (by decide)
  rw [fileName?, components_intercalate h, List.getLast?_concat]
  simp [hdot, hdots, hroot]

/-! ### Extensions -/

/-- What stands behind the last dot is the extension, if something stands in front of that dot. -/
theorem extensionOfName?_eq_some_iff {name ext : String} :
    extensionOfName? name = some ext ↔
      ∃ stem, name = stem ++ "." ++ ext ∧ stem ≠ "" ∧ '.' ∉ ext.toList := by
  have hdot : ".".toList = ['.'] := rfl
  constructor
  · intro h
    rw [extensionOfName?] at h
    split at h
    · rename_i before after hsplit
      obtain ⟨hname, hafter⟩ := splitLast?_singleton_eq_some_iff.mp hsplit
      split at h
      · cases h
      · rename_i hbefore
        obtain rfl := Option.some.inj h
        refine ⟨String.ofList before, ?_, ?_, by rwa [String.toList_ofList]⟩
        · rw [← String.toList_inj, hname]
          simp
        · simpa [← String.toList_inj] using hbefore
    · cases h
  · rintro ⟨stem, rfl, hstem, hext⟩
    have hsplit : splitLast? ['.'] (stem ++ "." ++ ext).toList = some (stem.toList, ext.toList) := by
      refine splitLast?_singleton_eq_some_iff.mpr ⟨?_, hext⟩
      rw [String.toList_append, String.toList_append, hdot, List.append_assoc, List.singleton_append]
    rw [extensionOfName?, hsplit]
    simpa using hstem

/-- The extension of a path is that of its last name. -/
theorem extension?_intercalate {front : List String} {name : String}
    (h : ∀ n ∈ front ++ [name], IsName n) :
    extension? ("/".intercalate (front ++ [name])) = extensionOfName? name := by
  rw [extension?, fileName?_intercalate h, Option.bind_some]

end CodeIndex.Path
