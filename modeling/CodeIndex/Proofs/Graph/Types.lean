import CodeIndex.Proofs.Graph.Triples
import CodeIndex.Proofs.Graph.Visits
import CodeIndex.Proofs.Identity
import CodeIndex.Proofs.Unit.Around
/-!
# Chunks and relationships agree on types

`types_are_defined`: of every named type among the units of a file, unless it stands inside an
import, the relationships of the file say that the file defines it: under its name, on the line of
its definition, and qualified by the names of the named units around it.

The two walks differ. One passes through wrappers and keeps definitions without a name, the other
visits wrappers like any node and opens scopes for names only. But the units around a unit are the
definitions among the ancestors of its node (`UnitTree.stands_collect`), and so are the scopes of a
visit (`qualify_scopesAt`).

The path and the names have to be plain. A text in a key ends where a zero octet stands, so a zero
inside a name can make two different types on one line look alike, and the second of them is lost
(`types_are_defined_not_with_zeros`).
-/

namespace CodeIndex.Graph

open CodeIndex.Syntax CodeIndex.UnitTree CodeIndex.Number

section Types

variable (resource : Resource) (t : Tree) (source : String) (i : Nat) (unit : CodeUnit)
  (name : String)

/-- The unit at a place of the flat list is a type that has a name and stands outside imports. -/
structure IsNamedType : Prop where
  listed : (listing (collect t source))[i]?.map (·.unit) = some unit
  kind : unit.kind = .type
  name : unit.name = some name
  outside : ∀ a ∈ t.ancestors unit.node, t.profile.isImport (t.kind a) = false

/-- The names of the named units around the one at a place, the outermost first. -/
def namesAbove : List String :=
  (above (listing (collect t source)) i).filterMap (·.name)

/-- What is to be said of a named type. -/
def typeTriple : Triple :=
  tripleOf resource resource.relativePath .defines name
    (t.profile.separator.intercalate (namesAbove t source i ++ [name]))
    (t.node unit.node).startLine .exact

variable {resource t source i unit name}

/-- Separators are plain. -/
theorem isPlain_separator (hprofile : t.profile ∈ Language.builtins.map (·.profile)) :
    Text.IsPlain t.profile.separator := by
  have hall : ∀ p ∈ Language.builtins.map (·.profile), Text.IsPlain p.separator := by decide
  exact hall _ hprofile

section

variable (hkinds : t.profile.KindsDisjoint)
  (hroot : isDefinition t Tree.root = false) (htype : IsNamedType t source i unit name)
include hkinds hroot htype

/-- A type among the units stands below the root, and the names above it are those around it. -/
theorem IsNamedType.stands :
    Stands t source Tree.root (above (listing (collect t source)) i, unit) := by
  obtain ⟨e, he, rfl⟩ := Option.map_eq_some_iff.mp htype.listed
  exact stands_collect hkinds hroot (mem_nestsOfList_of_listing he)

/-- In the scopes of its visit a type is qualified by the names above it. -/
theorem IsNamedType.qualify_eq :
    qualify t (scopesAt t source unit.node) name
      = t.profile.separator.intercalate (namesAbove t source i ++ [name]) := by
  have hnames : (enclosing t source unit.node).reverse.filterMap (definedName? t source)
      = (t.ancestors unit.node).reverse.filterMap (definedName? t source) := by
    rw [enclosing, ← List.filter_reverse, List.filterMap_filter]
    congr 1
    funext a
    cases definedName? t source a <;> rfl
  rw [qualify_scopesAt, hnames, (htype.stands hkinds hroot).around.filterMap_name]
  rfl

/-- The walk finds the type. -/
theorem IsNamedType.found (resource : Resource)
    (hfault : (findings t source (visits t source)).2 = none) :
    ∃ f ∈ (findings t source (visits t source)).1,
      declarationTriple? resource f = some (typeTriple resource t source i unit name) := by
  have hstands := htype.stands hkinds hroot
  -- The node is visible, so it is visited in the scopes of its ancestors.
  have hvisit : (⟨unit.node, scopesAt t source unit.node⟩ : Visit) ∈ visits t source := by
    rw [visits_eq]
    refine List.mem_map_of_mem (List.mem_filter.mpr ⟨hstands.below, ?_⟩)
    rw [List.all_eq_true]
    exact fun a ha => by rw [htype.outside a ha]; rfl
  obtain ⟨found, hfound, hmem⟩ := mem_findings hfault hvisit
  have hisType : t.profile.isType (t.kind unit.node) = true :=
    isType_of_kind? (hstands.kind.trans (congrArg some htype.kind))
  have himport : ¬ t.profile.isImport (t.kind unit.node) = true := fun h => by
    rw [(hkinds.of_isImport h).2.1] at hisType
    cases hisType
  have hlike : isTypeLike t unit.node = true := by
    rw [isTypeLike, hisType]
    rfl
  have hname : t.name? unit.node source = some name := hstands.name.symm.trans htype.name
  rw [findingsAt] at hfound
  dsimp only at hfound
  rw [if_neg himport, if_pos (by rw [hlike]; rfl), hname] at hfound
  obtain rfl := Except.ok.inj hfound
  refine ⟨definitionOf t ⟨unit.node, scopesAt t source unit.node⟩ name,
    hmem _ List.mem_cons_self, ?_⟩
  simp only [definitionOf, hisType, if_true, declarationTriple?, typeTriple,
    htype.qualify_eq hkinds hroot]

/-- What is to be said of the type is among the relationships, where the names and the separator are
plain. -/
theorem IsNamedType.typeTriple_mem (hseparator : Text.IsPlain t.profile.separator)
    (hfault : (extract resource (some t) source).fault = none)
    (hplain : ∀ s ∈ resource.relativePath :: name :: namesAbove t source i, Text.IsPlain s)
    (hline : (t.node unit.node).startLine < count64)
    (hfree : Identity.IsCollisionFree ((typeTriple resource t source i unit name).key ::
      (extract resource (some t) source).triples.map Triple.key)) :
    typeTriple resource t source i unit name ∈ (extract resource (some t) source).triples := by
  obtain ⟨f, hf, hd⟩ := htype.found hkinds hroot resource hfault
  obtain ⟨e, he, hid, hle⟩ := exists_triple_of_finding hf hd
  -- One triple with the identity of the type's is there; its key is the same, and so is the rest.
  have hkey : (typeTriple resource t source i unit name).key = e.key :=
    hfree _ List.mem_cons_self _ (List.mem_cons_of_mem _ (List.mem_map_of_mem he)) hid.symm
  have htarget : Text.IsPlain (typeTriple resource t source i unit name).targetSymbol := by
    refine Text.isPlain_intercalate hseparator fun s hs => hplain s ?_
    rcases List.mem_append.mp hs with hs | hs
    · exact List.mem_cons_of_mem _ (List.mem_cons_of_mem _ hs)
    · rw [List.mem_singleton.mp hs]
      exact List.mem_cons_of_mem _ List.mem_cons_self
  have hplains : ∀ s ∈ [resource.relativePath, Predicate.defines.name, name,
      (typeTriple resource t source i unit name).targetSymbol], Text.IsPlain s := by
    simp only [List.forall_mem_cons] at hplain ⊢
    exact ⟨hplain.1, by decide, hplain.2.1, htarget, fun s hs => absurd hs List.not_mem_nil⟩
  obtain ⟨-, hpredicate, hobject, htarget', hline'⟩ := Triple.key_inj_of_resourceId
    (resourceId_of_mem_extract he).symm hplains hline (Nat.lt_of_le_of_lt hle hline) hkey
  have heq := eq_tripleOf_of_defines he hpredicate.symm
  rw [← hobject, ← htarget', ← hline'] at heq
  rw [heq] at he
  exact he

end

/-- **Types are defined**: if the walk meets no fault, the relationships of a file tell of every
named type among its units that stands outside imports. -/
theorem types_are_defined (hprofile : t.profile ∈ Language.builtins.map (·.profile))
    (hroot : kind? t (t.kind Tree.root) = none)
    (hfault : (extract resource (some t) source).fault = none)
    (htype : IsNamedType t source i unit name)
    (hplain : ∀ s ∈ resource.relativePath :: name :: namesAbove t source i, Text.IsPlain s)
    (hline : (t.node unit.node).startLine < count64)
    (hfree : Identity.IsCollisionFree ((typeTriple resource t source i unit name).key ::
      (extract resource (some t) source).triples.map Triple.key)) :
    typeTriple resource t source i unit name ∈ (extract resource (some t) source).triples := by
  have hkinds := Language.Profile.kindsDisjoint_of_mem_builtins hprofile
  have hnone : isDefinition t Tree.root = false := by rw [isDefinition, hroot]; rfl
  exact htype.typeTriple_mem hkinds hnone (isPlain_separator hprofile) hfault hplain hline hfree

end Types

/-- A decorated class with a class inside: both are told of, the inner one behind the outer one. -/
theorem types_are_defined_nested :
    let t : Tree :=
      ⟨"python", .python,
        #[⟨"module", none, 0, 3, 1, 1, none, false⟩,
          ⟨"decorated_definition", none, 0, 3, 1, 1, some 0, false⟩,
          ⟨"class_definition", some "definition", 0, 3, 1, 1, some 1, false⟩,
          ⟨"identifier", some "name", 0, 1, 1, 1, some 2, false⟩,
          ⟨"class_definition", none, 2, 3, 1, 1, some 2, false⟩,
          ⟨"identifier", some "name", 2, 3, 1, 1, some 4, false⟩], by decide, _, rfl⟩
    let file := Resource.ofPath "/r" "a.py" .practice "python" .epoch
    let unit : CodeUnit := ⟨4, .type, some "B", 1, 1⟩
    IsNamedType t "A B" 1 unit "B" ∧ namesAbove t "A B" 1 = ["A"] ∧
    (typeTriple file t "A B" 1 unit "B").targetSymbol = "A.B" ∧
    typeTriple file t "A B" 1 unit "B" ∈ (extract file (some t) "A B").triples := by
  intro t file unit
  have htype : IsNamedType t "A B" 1 unit "B" :=
    ⟨by decide +kernel, rfl, rfl, by decide +kernel⟩
  have habove : namesAbove t "A B" 1 = ["A"] := by decide +kernel
  refine ⟨htype, habove, by decide +kernel, types_are_defined (by decide) (by decide)
    (by decide +kernel) htype ?_ (by decide) ?_⟩
  · rw [habove]
    decide
  · rw [triples_extract]
    decide +kernel

/-- Three classes on one line, with zeros in their names. What is to be said of the last one has the
key of what is said of the one inside the first, so it is left out. -/
theorem types_are_defined_not_with_zeros :
    let t : Tree :=
      ⟨"python", .python,
        #[⟨"module", none, 0, 9, 1, 1, none, false⟩,
          ⟨"class_definition", none, 0, 9, 1, 1, some 0, false⟩,
          ⟨"identifier", some "name", 0, 7, 1, 1, some 1, false⟩,
          ⟨"class_definition", none, 8, 9, 1, 1, some 1, false⟩,
          ⟨"identifier", some "name", 8, 9, 1, 1, some 3, false⟩,
          ⟨"class_definition", none, 4, 9, 1, 1, some 0, false⟩,
          ⟨"identifier", some "name", 4, 9, 1, 1, some 5, false⟩], by decide, _, rfl⟩
    let file := Resource.ofPath "/r" "a.py" .practice "python" .epoch
    let source := "k.x\x00x\x00k.x"
    let unit : CodeUnit := ⟨5, .type, some "x\x00k.x", 1, 1⟩
    t.profile ∈ Language.builtins.map (·.profile) ∧ kind? t (t.kind Tree.root) = none ∧
    (extract file (some t) source).fault = none ∧ IsNamedType t source 2 unit "x\x00k.x" ∧
    ¬ ∃ e ∈ (extract file (some t) source).triples, e.predicate = .defines ∧
      e.object = "x\x00k.x" ∧ e.line = (t.node unit.node).startLine ∧
      e.subject = file.relativePath ∧
      e.targetSymbol = t.profile.separator.intercalate (namesAbove t source 2 ++ ["x\x00k.x"]) := by
  intro t file source unit
  have htype : IsNamedType t source 2 unit "x\x00k.x" :=
    ⟨by decide +kernel, rfl, rfl, by decide +kernel⟩
  refine ⟨by decide, by decide, by decide +kernel, htype, ?_⟩
  rw [triples_extract]
  decide +kernel

end CodeIndex.Graph
