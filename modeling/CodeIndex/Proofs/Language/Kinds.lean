import CodeIndex.Language.Profile
/-!
# Kinds of nodes do not overlap

A profile is unambiguous when a kind of node means one thing at most (`KindsDisjoint`): imports,
functions, types and containers taken together, and calls exclude one another, and what stands
around a definition defines nothing itself. What a node is does then not depend on the order in
which a walk asks. All built-in profiles are unambiguous, and a further one has to be shown to be no
more than that.
-/

namespace CodeIndex.Language.Profile

/-- A kind of node is an import, a function, a type or container, or a call, and nothing else; and
wrappers are neither functions nor types nor containers. -/
structure KindsDisjoint (p : Profile) : Prop where
  imports : ∀ kind ∈ p.importKinds,
    kind ∉ p.functionKinds ++ p.typeKinds ++ p.containerKinds ++ p.callKinds.map Prod.fst
  functions : ∀ kind ∈ p.functionKinds,
    kind ∉ p.typeKinds ++ p.containerKinds ++ p.callKinds.map Prod.fst
  types : ∀ kind ∈ p.typeKinds ++ p.containerKinds, kind ∉ p.callKinds.map Prod.fst
  wrappers : ∀ kind ∈ p.wrapperKinds.map Prod.fst,
    kind ∉ p.functionKinds ++ p.typeKinds ++ p.containerKinds

theorem kindsDisjoint_iff (p : Profile) : p.KindsDisjoint ↔
    (∀ kind ∈ p.importKinds,
      kind ∉ p.functionKinds ++ p.typeKinds ++ p.containerKinds ++ p.callKinds.map Prod.fst) ∧
    (∀ kind ∈ p.functionKinds,
      kind ∉ p.typeKinds ++ p.containerKinds ++ p.callKinds.map Prod.fst) ∧
    (∀ kind ∈ p.typeKinds ++ p.containerKinds, kind ∉ p.callKinds.map Prod.fst) ∧
    (∀ kind ∈ p.wrapperKinds.map Prod.fst,
      kind ∉ p.functionKinds ++ p.typeKinds ++ p.containerKinds) :=
  ⟨fun ⟨himports, hfunctions, htypes, hwrappers⟩ => ⟨himports, hfunctions, htypes, hwrappers⟩,
    fun ⟨himports, hfunctions, htypes, hwrappers⟩ => ⟨himports, hfunctions, htypes, hwrappers⟩⟩

instance (p : Profile) : Decidable p.KindsDisjoint :=
  decidable_of_iff _ (kindsDisjoint_iff p).symm

theorem kindsDisjoint_of_mem_builtins {p : Profile} (h : p ∈ builtins.map (·.profile)) :
    p.KindsDisjoint := by
  obtain ⟨b, hb, rfl⟩ := List.mem_map.mp h
  revert b
  decide

variable {p : Profile}

/-- Only calls have a callee. -/
theorem calleeField?_of_not_mem {kind : String} (h : kind ∉ p.callKinds.map Prod.fst) :
    p.calleeField? kind = none := by
  rw [calleeField?, List.lookup_eq_none_iff]
  intro pair hpair
  rw [bne_iff_ne]
  rintro rfl
  exact h (List.mem_map_of_mem hpair)

namespace KindsDisjoint

variable (hp : p.KindsDisjoint) {kind : String}
include hp

theorem of_isImport (h : p.isImport kind = true) :
    p.isFunction kind = false ∧ p.isType kind = false ∧ p.isContainer kind = false ∧
    p.calleeField? kind = none := by
  have hnot := hp.imports kind (List.contains_iff_mem.mp h)
  simp only [List.mem_append, not_or] at hnot
  obtain ⟨⟨⟨hfunction, htype⟩, hcontainer⟩, hcall⟩ := hnot
  refine ⟨?_, ?_, ?_, calleeField?_of_not_mem hcall⟩
  · simpa [isFunction] using hfunction
  · simpa [isType] using htype
  · simpa [isContainer] using hcontainer

theorem of_isFunction (h : p.isFunction kind = true) :
    p.isType kind = false ∧ p.isContainer kind = false ∧ p.calleeField? kind = none := by
  have hnot := hp.functions kind (List.contains_iff_mem.mp h)
  simp only [List.mem_append, not_or] at hnot
  obtain ⟨⟨htype, hcontainer⟩, hcall⟩ := hnot
  refine ⟨?_, ?_, calleeField?_of_not_mem hcall⟩
  · simpa [isType] using htype
  · simpa [isContainer] using hcontainer

theorem calleeField?_of_isType (h : (p.isType kind || p.isContainer kind) = true) :
    p.calleeField? kind = none := by
  have hmem : kind ∈ p.typeKinds ++ p.containerKinds := by
    rw [Bool.or_eq_true] at h
    exact List.mem_append.mpr (h.imp List.contains_iff_mem.mp List.contains_iff_mem.mp)
  exact calleeField?_of_not_mem (hp.types kind hmem)

/-- What stands around a definition defines nothing itself. -/
theorem of_wrappedField? {field : String} (h : p.wrappedField? kind = some field) :
    p.isFunction kind = false ∧ p.isType kind = false ∧ p.isContainer kind = false := by
  obtain ⟨before, after, hentries, -⟩ := List.lookup_eq_some_iff.mp h
  have hmem : (kind, field) ∈ p.wrapperKinds := by
    rw [hentries]
    exact List.mem_append_right _ List.mem_cons_self
  have hnot := hp.wrappers kind (List.mem_map_of_mem hmem)
  simp only [List.mem_append, not_or] at hnot
  obtain ⟨⟨hfunction, htype⟩, hcontainer⟩ := hnot
  refine ⟨?_, ?_, ?_⟩
  · simpa [isFunction] using hfunction
  · simpa [isType] using htype
  · simpa [isContainer] using hcontainer

end KindsDisjoint

end CodeIndex.Language.Profile
