import CodeIndex.Imports.Python
import CodeIndex.Proofs.Graph.Resolution
import CodeIndex.Proofs.Graph.Triples
import CodeIndex.Proofs.Text.Split
import Mathlib.Data.List.TakeWhile
/-!
# What Python imports bind

A plain import binds the first component of its module to itself, or an alias to the whole module;
a from-import binds each name or its alias to that name inside the module. For a plain import the
reader does not ask whether there is an alias: it compares the local name with the module.
`readPython_iff` says when that is enough: always, unless a module is imported under the name of one
above it, as in `import a.b as a`.

The same condition decides on calls of members of an alias, which are members of the module.
-/

namespace CodeIndex.Imports

open CodeIndex.Syntax

/-! ### What is imported -/

/-- The module lies below another one, whose name is in front of its own. -/
def IsBelow (modulePath parent : String) : Prop :=
  ∃ rest, modulePath = parent ++ "." ++ rest

/-- A name in an import statement, and its alias if it has one. -/
structure ImportedName where
  name : String
  alias? : Option String
  deriving DecidableEq

namespace ImportedName

/-- What a plain import binds: the first component of the module to itself, or the alias to the
module. -/
def moduleBinding (n : ImportedName) : Binding :=
  match n.alias? with
  | none => ⟨firstComponent n.name, firstComponent n.name⟩
  | some localName => ⟨localName, n.name⟩

/-- A module that is imported. -/
def moduleImport (line : Nat) (n : ImportedName) : Import :=
  .binding n.name line [n.moduleBinding]

/-- What a from-import binds: the name or its alias to the name in the module. There is no dot
between them if the module ends with one. -/
def memberBinding (modulePath : String) (n : ImportedName) : Binding :=
  ⟨n.alias?.getD n.name,
    modulePath ++ (if ['.'] <:+ modulePath.toList then "" else ".") ++ n.name⟩

/-- A module is imported under the name of one above it. -/
def IsUnderParent (n : ImportedName) : Prop :=
  ∃ localName, n.alias? = some localName ∧ IsBelow n.name localName

end ImportedName

/-- What a node in an import statement says, if it is a name, or a name with an alias, inside the
source. -/
def said? (t : Tree) (source : String) (id : Nat) : Option ImportedName :=
  if t.kind id = "aliased_import" then do
    let nameNode ← t.childByField? id "name"
    let aliasNode ← t.childByField? id "alias"
    some ⟨← t.text? nameNode source, some (← t.text? aliasNode source)⟩
  else
    (t.text? id source).map (⟨·, none⟩)

/-- The nodes say the names. -/
def Say (t : Tree) (source : String) (ids : List Nat) (names : List ImportedName) : Prop :=
  List.Forall₂ (fun id n => said? t source id = some n) ids names

instance (t : Tree) (source : String) (ids : List Nat) (names : List ImportedName) :
    Decidable (Say t source ids names) :=
  inferInstanceAs (Decidable (List.Forall₂ _ ids names))

variable {t : Tree} {source : String} {id : Nat} {n : ImportedName} {names : List ImportedName}

theorem splitAlias_of_said (h : said? t source id = some n) :
    splitAlias t source id = (n.name, n.alias?) := by
  rw [said?] at h
  by_cases hkind : t.kind id = "aliased_import"
  · rw [if_pos hkind] at h
    simp only [Option.bind_eq_bind, Option.bind_eq_some_iff, Option.some.injEq] at h
    obtain ⟨nameNode, hname, aliasNode, halias, name, hnameText, localName, haliasText, rfl⟩ := h
    simp [splitAlias, hkind, hname, halias, hnameText, haliasText]
  · rw [if_neg hkind] at h
    obtain ⟨name, htext, rfl⟩ := Option.map_eq_some_iff.mp h
    simp [splitAlias, hkind, Tree.text, htext]

/-! ### What a local name stands for -/

theorem isPrefixOf_iff_isBelow {localName modulePath : String} :
    (localName.toList ++ ['.']).isPrefixOf modulePath.toList ↔ IsBelow modulePath localName := by
  rw [List.isPrefixOf_iff_prefix]
  constructor
  · rintro ⟨rest, hrest⟩
    refine ⟨String.ofList rest, ?_⟩
    rw [← String.toList_inj]
    simp [← hrest]
  · rintro ⟨rest, rfl⟩
    exact ⟨rest.toList, by simp⟩

theorem qualifiedModule_of_isBelow {localName modulePath : String}
    (h : IsBelow modulePath localName) : qualifiedModule modulePath localName = localName := by
  rw [qualifiedModule, isPrefixOf_iff_isBelow.mpr h, Bool.or_true, if_pos rfl]

theorem qualifiedModule_of_not_isBelow {localName modulePath : String}
    (h : ¬ IsBelow modulePath localName) : qualifiedModule modulePath localName = modulePath := by
  rw [← isPrefixOf_iff_isBelow] at h
  rw [qualifiedModule]
  split
  · rename_i hlocal
    rw [Bool.or_eq_true, beq_iff_eq] at hlocal
    exact hlocal.resolve_right h
  · rfl

/-- A local name stands for the module unless the module lies below it. -/
theorem qualifiedModule_eq_iff {localName modulePath : String} :
    qualifiedModule modulePath localName = modulePath ↔ ¬ IsBelow modulePath localName := by
  by_cases hbelow : IsBelow modulePath localName
  · rw [qualifiedModule_of_isBelow hbelow]
    obtain ⟨rest, rfl⟩ := hbelow
    refine iff_of_false (fun heq => ?_) (not_not_intro ⟨rest, rfl⟩)
    -- The module has the longer name.
    have hlength := congrArg String.length heq
    simp only [String.length_append] at hlength
    have hdot : ".".length = 1 := rfl
    omega
  · exact iff_of_true (qualifiedModule_of_not_isBelow hbelow) hbelow

theorem eq_or_isBelow_firstComponent (modulePath : String) :
    modulePath = firstComponent modulePath ∨ IsBelow modulePath (firstComponent modulePath) := by
  have happend := List.takeWhile_append_dropWhile (p := (· != '.')) (l := modulePath.toList)
  cases hrest : modulePath.toList.dropWhile (· != '.') with
  | nil =>
    rw [hrest, List.append_nil] at happend
    left
    rw [← String.toList_inj, firstComponent, String.toList_ofList, happend]
  | cons c rest =>
    have hne : modulePath.toList.dropWhile (· != '.') ≠ [] := by simp [hrest]
    have hdot : c = '.' := by
      have hhead := List.head_dropWhile_not (· != '.') hne
      simpa [hrest] using hhead
    rw [hrest, hdot] at happend
    right
    refine ⟨String.ofList rest, ?_⟩
    rw [← String.toList_inj]
    simp [firstComponent, happend]

/-- The first component of a module stands for itself. -/
theorem qualifiedModule_firstComponent (modulePath : String) :
    qualifiedModule modulePath (firstComponent modulePath) = firstComponent modulePath := by
  rcases eq_or_isBelow_firstComponent modulePath with heq | hbelow
  · rw [← heq]
    simp [qualifiedModule]
  · exact qualifiedModule_of_isBelow hbelow

theorem memberOf_eq (modulePath name : String) :
    memberOf modulePath name
      = modulePath ++ (if ['.'] <:+ modulePath.toList then "" else ".") ++ name := by
  have hsuffix : modulePath.toList.getLast? == some '.' ↔ ['.'] <:+ modulePath.toList := by
    rw [beq_iff_eq, List.getLast?_eq_some_iff]
    exact exists_congr fun front => eq_comm
  unfold memberOf
  by_cases hdot : ['.'] <:+ modulePath.toList
  · rw [if_pos (hsuffix.mpr hdot), if_pos hdot, String.append_empty]
  · rw [if_neg (hsuffix.not.mpr hdot), if_neg hdot]

/-! ### Reading statements -/

theorem readModule_eq_iff (line : Nat) (h : said? t source id = some n) :
    readModule t source line id = n.moduleImport line ↔ ¬ n.IsUnderParent := by
  have hread : readModule t source line id
      = .binding n.name line [⟨n.alias?.getD (firstComponent n.name),
          qualifiedModule n.name (n.alias?.getD (firstComponent n.name))⟩] := by
    rw [readModule, splitAlias_of_said h]
  rw [hread, ImportedName.moduleImport, ImportedName.moduleBinding, ImportedName.IsUnderParent]
  cases halias : n.alias? with
  | none => simp [qualifiedModule_firstComponent]
  | some localName => simp [Import.binding, qualifiedModule_eq_iff]

theorem readMember_eq (modulePath : String) (h : said? t source id = some n) :
    readMember t source modulePath id = n.memberBinding modulePath := by
  rw [readMember, splitAlias_of_said h, ImportedName.memberBinding, ← memberOf_eq]

section Names

variable {ids : List Nat} (h : Say t source ids names)
include h

theorem map_readModule_eq_iff (line : Nat) :
    ids.map (readModule t source line) = names.map (·.moduleImport line) ↔
      ∀ n ∈ names, ¬ n.IsUnderParent := by
  induction h with
  | nil => simp
  | cons hsays _ ih =>
    rw [List.map_cons, List.map_cons, List.cons.injEq, ih, readModule_eq_iff line hsays,
      List.forall_mem_cons]

theorem map_readMember_eq (modulePath : String) :
    ids.map (readMember t source modulePath) = names.map (·.memberBinding modulePath) := by
  induction h with
  | nil => rfl
  | cons hsays _ ih => rw [List.map_cons, List.map_cons, ih, readMember_eq modulePath hsays]

/-- The alias of a module is bound to what it is read as. -/
theorem exists_readModule (line : Nat) {localName : String} (hn : n ∈ names)
    (halias : n.alias? = some localName) :
    ∃ i ∈ ids.map (readModule t source line),
      ⟨localName, qualifiedModule n.name localName⟩ ∈ i.bindings := by
  induction h with
  | nil => cases hn
  | cons hsays _ ih =>
    rcases List.mem_cons.mp hn with rfl | hn
    · refine ⟨_, List.mem_cons_self, ?_⟩
      rw [readModule, splitAlias_of_said hsays, halias]
      exact List.mem_cons_self
    · obtain ⟨i, hi, hbinding⟩ := ih hn
      exact ⟨i, List.mem_cons_of_mem _ hi, hbinding⟩

end Names

/-! ### Calls of members of an alias -/

open CodeIndex.Graph

/-- The text is an identifier. -/
structure IsIdentifier (text : String) : Prop where
  nonempty : text ≠ ""
  chars : ∀ c ∈ text.toList, isIdentifierChar c = true

/-- The text can be the name of a member: it does not reach to a member of that. -/
structure IsMemberName (text : String) : Prop where
  nonempty : text ≠ ""
  dotless : '.' ∉ text.toList
  colonless : ':' ∉ text.toList

theorem IsIdentifier.isMemberName {text : String} (h : IsIdentifier text) :
    IsMemberName text := by
  have hnot : ∀ c, isIdentifierChar c = false → c ∉ text.toList := by
    intro c hseparator hmem
    have hchar := h.chars c hmem
    rw [hseparator] at hchar
    cases hchar
  obtain ⟨hdot, hcolon⟩ := isIdentifierChar_separators
  exact ⟨h.nonempty, hnot '.' hdot, hnot ':' hcolon⟩

/-- Two names with a dot between them are split there. -/
theorem splitCallee?_dot {receiver member : String} (hreceiver : IsMemberName receiver)
    (hmember : IsMemberName member) :
    splitCallee? (receiver ++ "." ++ member) = some (receiver, member) := by
  have hcallee : (receiver ++ "." ++ member).toList
      = receiver.toList ++ '.' :: ([] ++ member.toList) := by simp
  have hdot : Text.splitLast? ['.'] (receiver ++ "." ++ member).toList
      = some (receiver.toList, member.toList) := by
    rw [hcallee]
    exact Text.splitLast?_append _ (Text.splitLast?_of_not_mem [] hmember.dotless)
  have hcolons : Text.splitLast? [':', ':'] (receiver ++ "." ++ member).toList = none := by
    apply Text.splitLast?_of_not_mem
    simp [hreceiver.colonless, hmember.colonless]
  rw [splitCallee?, splitChars?, cutChars?, hdot, hcolons]
  simp [hreceiver.nonempty, hmember.nonempty]

theorem receiverRoot_of_isIdentifier {receiver : String} (h : IsIdentifier receiver) :
    receiverRoot receiver = receiver := by
  rw [← String.toList_inj, receiverRoot, String.toList_ofList, List.takeWhile_eq_self_iff]
  exact h.chars

/-- Everything that imports bind a local name to. -/
def boundTo (found : List Finding) (localName : String) : List String :=
  SymbolTable.targets (bindingsOf (found.filterMap Finding.import?)) localName

theorem named_bindings (found : List Finding) (localName : String) :
    named (symbolsOf found).symbols.bindings localName = (boundTo found localName).toFinset := by
  have hperm := (found.filterMap Finding.import?).reverse_perm.flatMap_right
    fun i => i.bindings.map fun b => (b.localName, b.qualified)
  rw [boundTo, SymbolTable.toFinset_targets, symbolsOf_eq, SymbolTable.symbols]
  exact congrArg (named · localName) (List.toFinset_eq_of_perm _ _ hperm)

/-- A local name that is bound once means, in front of a member, what it is bound to. -/
theorem resolve_member {found : List Finding} {localName qualified member : String}
    (hlocal : IsIdentifier localName) (hmember : IsMemberName member)
    (hself : localName ∉ t.profile.selfReceivers) (hbound : boundTo found localName = [qualified])
    (enclosing : Option String) :
    ((symbolsOf found).resolve t.profile (localName ++ "." ++ member) enclosing).target
      = qualified ++ "." ++ member := by
  have hroot := receiverRoot_of_isIdentifier hlocal
  have hnamed :
      named (symbolsOf found).symbols.bindings (receiverRoot localName) = {qualified} := by
    rw [hroot, named_bindings, hbound]
    rfl
  -- No self receiver and bound once: the row of an imported receiver applies.
  have hrow : (symbolsOf found).symbols.Resolves t.profile (localName ++ "." ++ member) enclosing
      (qualified ++ ("." ++ member)) (4 / 5) := by
    apply Symbols.Resolves.imported (splitCallee?_dot hlocal.isMemberName hmember) ?_ hnamed
    · rw [hroot, String.append_assoc]
    · exact fun owner hcall => hself hcall.1
  rw [← (Symbols.resolves_iff.mp hrow).1, String.append_assoc]

/-! ### Statements -/

theorem readPython_import (hkind : t.kind id = "import_statement") :
    readPython t source id
      = (t.childrenByField id "name").map (readModule t source (t.node id).startLine) := by
  simp [readPython, hkind]

theorem readPython_from (h : Say t source (t.childrenByField id "name") names)
    (hkind : t.kind id = "import_from_statement") {node : Nat} {modulePath : String}
    (hfield : t.childByField? id "module_name" = some node)
    (htext : t.text? node source = some modulePath) :
    readPython t source id
      = [⟨modulePath, (t.node id).startLine,
          decide (∃ c ∈ t.children id, t.kind c = "wildcard_import"),
          names.map (·.memberBinding modulePath)⟩] := by
  have hstar : (t.childOfKind? id "wildcard_import").isSome
      = decide (∃ c ∈ t.children id, t.kind c = "wildcard_import") := by
    rw [Bool.eq_iff_iff, Tree.childOfKind?, List.find?_isSome, decide_eq_true_eq]
    simp only [beq_iff_eq]
  have hread : readPython t source id
      = [⟨t.text node source, (t.node id).startLine,
          (t.childOfKind? id "wildcard_import").isSome,
          (t.childrenByField id "name").map (readMember t source (t.text node source))⟩] := by
    simp [readPython, hkind, hfield]
  rw [hread, Tree.text, htext, Option.getD_some, hstar, map_readMember_eq h]

/-- An alias that nothing else is bound to is bound to what it is read as. -/
theorem boundTo_alias (h : Say t source (t.childrenByField id "name") names)
    (hkind : t.kind id = "import_statement") {found : List Finding}
    (hread : ∀ i ∈ readPython t source id, .imported i ∈ found) {localName : String}
    (hn : n ∈ names) (halias : n.alias? = some localName)
    (honce : (boundTo found localName).length = 1) :
    boundTo found localName = [qualifiedModule n.name localName] := by
  obtain ⟨i, hi, hbinding⟩ := exists_readModule h (t.node id).startLine hn halias
  rw [← readPython_import hkind] at hi
  have hmem : qualifiedModule n.name localName ∈ boundTo found localName := by
    rw [boundTo, SymbolTable.targets, List.mem_map]
    refine ⟨(localName, _), List.mem_filter.mpr ⟨?_, beq_self_eq_true _⟩, rfl⟩
    exact List.mem_flatMap.mpr ⟨i, List.mem_filterMap.mpr ⟨_, hread i hi, rfl⟩,
      List.mem_map.mpr ⟨_, hbinding, rfl⟩⟩
  -- There is nothing else in the list.
  obtain ⟨only, honly⟩ := List.length_eq_one_iff.mp honce
  rw [honly, List.mem_singleton] at hmem
  rw [honly, hmem]

/-- **What Python imports bind.** An import statement is read as one import for each module, and a
from-import as one import with all its names. They bind what Python binds, and calls of members of
an alias that nothing else is bound to go to the module, just when no module is imported under the
name of one above it. -/
theorem readPython_iff
    (hnames : Say t source (t.childrenByField id "name") names) :
    (t.kind id = "import_statement" →
      (readPython t source id = names.map (·.moduleImport (t.node id).startLine) ↔
        ∀ n ∈ names, ¬ n.IsUnderParent)) ∧
    (t.kind id = "import_from_statement" → ∀ node modulePath,
      t.childByField? id "module_name" = some node → t.text? node source = some modulePath →
      readPython t source id
        = [⟨modulePath, (t.node id).startLine,
            decide (∃ c ∈ t.children id, t.kind c = "wildcard_import"),
            names.map (·.memberBinding modulePath)⟩]) ∧
    (t.kind id = "import_statement" →
      (∀ i ∈ readPython t source id, .imported i ∈ foundIn t source) →
      ∀ n ∈ names, ∀ localName member, n.alias? = some localName → IsIdentifier localName →
      localName ∉ t.profile.selfReceivers → (boundTo (foundIn t source) localName).length = 1 →
      IsMemberName member →
      (∀ enclosing,
        ((symbolsOf (foundIn t source)).resolve t.profile (localName ++ "." ++ member)
          enclosing).target = n.name ++ "." ++ member ↔ ¬ n.IsUnderParent) ∧
      ∀ resource, ∀ e ∈ (extract resource (some t) source).triples, e.predicate = .calls →
        e.object = localName ++ "." ++ member →
        (e.targetSymbol = n.name ++ "." ++ member ↔ ¬ n.IsUnderParent)) := by
  refine ⟨?_, ?_, ?_⟩
  · intro hkind
    rw [readPython_import hkind]
    exact map_readModule_eq_iff hnames _
  · intro hkind node modulePath hfield htext
    exact readPython_from hnames hkind hfield htext
  · intro hkind hread n hn localName member halias hlocal hself honce hmember
    have hbound := boundTo_alias hnames hkind hread hn halias honce
    have hresolve : ∀ enclosing,
        ((symbolsOf (foundIn t source)).resolve t.profile (localName ++ "." ++ member)
          enclosing).target = n.name ++ "." ++ member ↔ ¬ n.IsUnderParent := by
      intro enclosing
      have hunder : n.IsUnderParent ↔ IsBelow n.name localName := by
        simp [ImportedName.IsUnderParent, halias]
      rw [resolve_member hlocal hmember hself hbound enclosing, hunder, ← qualifiedModule_eq_iff,
        String.append_left_inj, String.append_left_inj]
    refine ⟨hresolve, fun resource e he hcalls hobject => ?_⟩
    obtain ⟨enclosing, htarget⟩ := targetSymbol_of_mem_extract he hcalls
    rw [htarget, hobject]
    exact hresolve enclosing

/-- A module under an alias, a name of a package beside the file, and a call on the alias. -/
theorem readPython_iff_alias :
    let t : Tree :=
      ⟨"python", .python,
        #[⟨"module", none, 0, 42, 1, 3, none, false⟩,
          ⟨"import_statement", none, 0, 15, 1, 1, some 0, false⟩,
          ⟨"aliased_import", some "name", 7, 15, 1, 1, some 1, false⟩,
          ⟨"dotted_name", some "name", 7, 10, 1, 1, some 2, false⟩,
          ⟨"identifier", some "alias", 14, 15, 1, 1, some 2, false⟩,
          ⟨"import_from_statement", none, 16, 36, 2, 2, some 0, false⟩,
          ⟨"relative_import", some "module_name", 21, 22, 2, 2, some 5, false⟩,
          ⟨"aliased_import", some "name", 30, 36, 2, 2, some 5, false⟩,
          ⟨"dotted_name", some "name", 30, 31, 2, 2, some 7, false⟩,
          ⟨"identifier", some "alias", 35, 36, 2, 2, some 7, false⟩,
          ⟨"call", none, 37, 42, 3, 3, some 0, false⟩,
          ⟨"attribute", some "function", 37, 40, 3, 3, some 10, false⟩], by decide, _, rfl⟩
    let source := "import a.b as x\nfrom . import c as d\nx.f()"
    let file := Resource.ofPath "/r" "a.py" .practice "python" .epoch
    readPython t source 1 = [.binding "a.b" 1 [⟨"x", "a.b"⟩]] ∧
    readPython t source 5 = [.binding "." 2 [⟨"d", ".c"⟩]] ∧
    .called "x.f" 3 [] ∈ foundIn t source ∧
    ((symbolsOf (foundIn t source)).resolve t.profile "x.f" none).target = "a.b.f" ∧
    ∀ e ∈ (extract file (some t) source).triples, e.predicate = .calls → e.object = "x.f" →
      e.targetSymbol = "a.b.f" := by
  intro t source file
  have hmodule : Say t source (t.childrenByField 1 "name") [⟨"a.b", some "x"⟩] := by decide +kernel
  have hname : Say t source (t.childrenByField 5 "name") [⟨"c", some "d"⟩] := by decide +kernel
  have hunder : ¬ ImportedName.IsUnderParent ⟨"a.b", some "x"⟩ := by
    rintro ⟨localName, halias, hbelow⟩
    obtain rfl := Option.some.inj halias
    rw [← isPrefixOf_iff_isBelow] at hbelow
    exact absurd hbelow (by decide)
  have hlocal : IsIdentifier "x" := by
    have hletter : isIdentifierChar 'x' = true := by decide +kernel
    exact ⟨by decide, by simpa using hletter⟩
  obtain ⟨himport, -, hcall⟩ := readPython_iff hmodule
  obtain ⟨-, hfrom, -⟩ := readPython_iff hname
  have hread := (himport (by decide +kernel)).mpr (by simpa using hunder)
  have hfrom := hfrom (by decide +kernel) 6 "." (by decide +kernel) (by decide +kernel)
  obtain ⟨hresolve, htriple⟩ := hcall (by decide +kernel) (by decide +kernel) _ List.mem_cons_self
    "x" "f" rfl hlocal (by decide) (by decide +kernel) ⟨by decide, by decide, by decide⟩
  refine ⟨hread, ?_, by decide +kernel, (hresolve none).mpr hunder, ?_⟩
  · rw [hfrom]
    decide +kernel
  · intro e he hcalls hobject
    exact (htriple file e he hcalls hobject).mpr hunder

/-- A module under the name of the package around it. The alias stands for the module; it is read as
the package, and so are calls on it. -/
theorem alias_read_as_parent :
    let t : Tree :=
      ⟨"python", .python,
        #[⟨"module", none, 0, 21, 1, 2, none, false⟩,
          ⟨"import_statement", none, 0, 15, 1, 1, some 0, false⟩,
          ⟨"aliased_import", some "name", 7, 15, 1, 1, some 1, false⟩,
          ⟨"dotted_name", some "name", 7, 10, 1, 1, some 2, false⟩,
          ⟨"identifier", some "alias", 14, 15, 1, 1, some 2, false⟩,
          ⟨"call", none, 16, 21, 2, 2, some 0, false⟩,
          ⟨"attribute", some "function", 16, 19, 2, 2, some 5, false⟩], by decide, _, rfl⟩
    let source := "import a.b as a\na.f()"
    let n : ImportedName := ⟨"a.b", some "a"⟩
    Say t source (t.childrenByField 1 "name") [n] ∧ n.IsUnderParent ∧
    n.moduleImport 1 = .binding "a.b" 1 [⟨"a", "a.b"⟩] ∧
    readPython t source 1 = [.binding "a.b" 1 [⟨"a", "a"⟩]] ∧
    boundTo (foundIn t source) "a" = ["a"] ∧ .called "a.f" 2 [] ∈ foundIn t source ∧
    ((symbolsOf (foundIn t source)).resolve t.profile "a.f" none).target = "a.f" := by
  intro t source n
  exact ⟨by decide +kernel, ⟨"a", rfl, "b", by decide⟩, rfl, by decide +kernel, by decide +kernel,
    by decide +kernel, by decide +kernel⟩

end CodeIndex.Imports
