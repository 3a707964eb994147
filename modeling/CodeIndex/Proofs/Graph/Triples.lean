import CodeIndex.Proofs.Graph.Order
/-!
# The triples of an extraction

Every triple of a file is said of the file, by a declaration or by a call (`cases_of_mem_extract`).
In turn, of everything that a walk without a fault finds declared there is a triple with the same
identity, on the same line or before it (`exists_triple_of_finding`).
-/

namespace CodeIndex.Graph

open CodeIndex.Syntax

/-! ### Findings -/

/-- A walk without a fault finds everything that its visits find. -/
theorem mem_findings {t : Tree} {source : String} {all : List Visit}
    (hfault : (findings t source all).2 = none) {visit : Visit} (hvisit : visit ∈ all) :
    ∃ found, findingsAt t source visit = .ok found ∧
      ∀ f ∈ found, f ∈ (findings t source all).1 := by
  induction all with
  | nil => cases hvisit
  | cons first rest ih =>
    rw [findings] at hfault ⊢
    cases hfirst : findingsAt t source first with
    | error fault =>
      rw [hfirst] at hfault
      cases hfault
    | ok found =>
      rw [hfirst] at hfault
      dsimp only at hfault ⊢
      rcases List.mem_cons.mp hvisit with rfl | hvisit
      · exact ⟨found, hfirst, fun f hf => List.mem_append_left _ hf⟩
      · obtain ⟨found', hfound', hmem⟩ := ih hfault hvisit
        exact ⟨found', hfound', fun f hf => List.mem_append_right _ (hmem f hf)⟩

/-! ### Triples -/

variable {r : Resource} {tree : Option Tree} {source : String}

/-- The triples of a file line by line, the first of each identity. -/
theorem triples_extract (r : Resource) (t : Tree) (source : String) :
    (extract r (some t) source).triples
      = distinctOn Triple.id [] (byKey Triple.line
          ((findings t source (visits t source)).1.filterMap (declarationTriple? r) ++
            (findings t source (visits t source)).1.filterMap
              (callTriple? t r (symbolsOf (findings t source (visits t source)).1)))) := by
  rw [← mergeSort_eq_byKey]
  rfl

/-- What the walk over a tree finds. -/
def foundIn (t : Tree) (source : String) : List Finding :=
  (findings t source (visits t source)).1

/-- A triple of a tree is that of something found there, in view of everything found there. -/
theorem exists_finding_of_mem_extract {t : Tree} {e : Triple}
    (h : e ∈ (extract r (some t) source).triples) :
    ∃ found ∈ foundIn t source, declarationTriple? r found = some e ∨
      callTriple? t r (symbolsOf (foundIn t source)) found = some e := by
  have hmem := distinctOn_subset _ _ _ h
  rw [List.mem_mergeSort, List.mem_append, List.mem_filterMap, List.mem_filterMap] at hmem
  rcases hmem with ⟨found, hfound, he⟩ | ⟨found, hfound, he⟩
  · exact ⟨found, hfound, Or.inl he⟩
  · exact ⟨found, hfound, Or.inr he⟩

/-- Where the triples of a file come from. -/
theorem cases_of_mem_extract {e : Triple} (h : e ∈ (extract r tree source).triples) :
    (∃ found, declarationTriple? r found = some e) ∨
      ∃ t table found, callTriple? t r table found = some e := by
  cases tree with
  | none => cases h
  | some t =>
    obtain ⟨found, -, he | he⟩ := exists_finding_of_mem_extract h
    · exact Or.inl ⟨found, he⟩
    · exact Or.inr ⟨t, _, found, he⟩

theorem callTriple?_eq_some {t : Tree} {table : SymbolTable} {found : Finding} {e : Triple}
    (h : callTriple? t r table found = some e) :
    e.resourceId = r.id ∧ e.predicate = .calls := by
  cases found with
  | imported => cases h
  | defined => cases h
  | called callee line scopes =>
    obtain rfl := Option.some.inj h
    exact ⟨rfl, rfl⟩

/-- A declaration is no call, and it is sure. -/
theorem declarationTriple?_eq_some {found : Finding} {e : Triple}
    (h : declarationTriple? r found = some e) :
    e.predicate ≠ .calls ∧
      e = tripleOf r r.relativePath e.predicate e.object e.targetSymbol e.line .exact := by
  cases found with
  | imported i =>
    obtain rfl := Option.some.inj h
    exact ⟨nofun, rfl⟩
  | defined name qualified owner line =>
    cases line with
    | none => cases h
    | some line =>
      obtain rfl := Option.some.inj h
      exact ⟨nofun, rfl⟩
  | called => cases h

/-- The target of a call is what the callee means in view of everything that the walk found. -/
theorem targetSymbol_of_mem_extract {t : Tree} {e : Triple}
    (h : e ∈ (extract r (some t) source).triples) (hcalls : e.predicate = .calls) :
    ∃ enclosing, e.targetSymbol
      = ((symbolsOf (foundIn t source)).resolve t.profile e.object enclosing).target := by
  obtain ⟨found, -, he | he⟩ := exists_finding_of_mem_extract h
  · exact absurd hcalls (declarationTriple?_eq_some he).1
  · cases found with
    | imported => cases he
    | defined => cases he
    | called callee line scopes =>
      obtain rfl := Option.some.inj he
      exact ⟨_, rfl⟩

/-- A triple of a file belongs to the file. -/
theorem resourceId_of_mem_extract {e : Triple} (h : e ∈ (extract r tree source).triples) :
    e.resourceId = r.id := by
  rcases cases_of_mem_extract h with ⟨found, hfound⟩ | ⟨t, table, found, hfound⟩
  · rw [(declarationTriple?_eq_some hfound).2]
    rfl
  · exact (callTriple?_eq_some hfound).1

/-- What is said of definitions is said of the file, and exact. -/
theorem eq_tripleOf_of_defines {e : Triple} (h : e ∈ (extract r tree source).triples)
    (hdefines : e.predicate = .defines) :
    e = tripleOf r r.relativePath .defines e.object e.targetSymbol e.line .exact := by
  rcases cases_of_mem_extract h with ⟨found, hfound⟩ | ⟨t, table, found, hfound⟩
  · have heq := (declarationTriple?_eq_some hfound).2
    rwa [hdefines] at heq
  · rw [(callTriple?_eq_some hfound).2] at hdefines
    cases hdefines

/-- What is found declared is told by a triple with its identity that does not stand behind it. -/
theorem exists_triple_of_finding {t : Tree} {found : Finding} {d : Triple}
    (hfound : found ∈ (findings t source (visits t source)).1)
    (hd : declarationTriple? r found = some d) :
    ∃ e ∈ (extract r (some t) source).triples, e.id = d.id ∧ e.line ≤ d.line := by
  let all := (findings t source (visits t source)).1
  have hmem : d ∈ (all.filterMap (declarationTriple? r) ++
      all.filterMap (callTriple? t r (symbolsOf all))).mergeSort fun a b => a.line ≤ b.line := by
    rw [List.mem_mergeSort, List.mem_append]
    exact Or.inl (List.mem_filterMap.mpr ⟨found, hfound, hd⟩)
  obtain ⟨e, he, hid, hline⟩ := exists_mem_distinctOn Triple.id
    (pairwise_mergeSort_key Triple.line _) hmem (List.not_mem_nil (a := d.id))
  refine ⟨e, he, hid, ?_⟩
  rcases hline with rfl | hline
  · exact Nat.le_refl _
  · exact hline

end CodeIndex.Graph
