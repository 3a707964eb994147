import CodeIndex.Proofs.Unit.Occurrences
/-!
# Units as they are laid out

The units of a file are laid out as they are nested when each lies in the lines of the one around it
and behind the one before it (`IsLaidOut`). The lines of a region that lie outside the units in it
fall into runs (`IsRun`). Seen from the first unit there is one in front of it or none, and what
lies behind it is a region again (`isRun_cons`).
-/

namespace CodeIndex.UnitTree

/-- Units that lie in the lines `first` to `last`, each behind the one before it. -/
structure LieIn (first last : Nat) (trees : List UnitTree) : Prop where
  inside : ∀ tree ∈ trees, first ≤ tree.unit.startLine ∧
    tree.unit.startLine ≤ tree.unit.endLine ∧ tree.unit.endLine ≤ last
  ascending : trees.Pairwise fun a b => a.unit.endLine < b.unit.startLine

/-- The units of a file of so many lines lie in the file, and those inside a unit in the unit. -/
structure IsLaidOut (lines : Nat) (forest : List UnitTree) : Prop where
  outermost : LieIn 1 lines forest
  nested : ∀ u ∈ occurrencesOfList [] forest,
    LieIn u.tree.unit.startLine u.tree.unit.endLine u.tree.nested

instance (first last : Nat) (trees : List UnitTree) : Decidable (LieIn first last trees) :=
  decidable_of_iff
    ((∀ tree ∈ trees, first ≤ tree.unit.startLine ∧
      tree.unit.startLine ≤ tree.unit.endLine ∧ tree.unit.endLine ≤ last) ∧
      trees.Pairwise fun a b => a.unit.endLine < b.unit.startLine)
    ⟨fun h => ⟨h.1, h.2⟩, fun h => ⟨h.inside, h.ascending⟩⟩

instance (lines : Nat) (forest : List UnitTree) : Decidable (IsLaidOut lines forest) :=
  decidable_of_iff
    (LieIn 1 lines forest ∧ ∀ u ∈ occurrencesOfList [] forest,
      LieIn u.tree.unit.startLine u.tree.unit.endLine u.tree.nested)
    ⟨fun h => ⟨h.1, h.2⟩, fun h => ⟨h.outermost, h.nested⟩⟩

/-- The line belongs to one of the units. -/
def Covers (trees : List UnitTree) (l : Nat) : Prop :=
  ∃ tree ∈ trees, tree.unit.startLine ≤ l ∧ l ≤ tree.unit.endLine

/-- The lines `start` to `stop` are outside the units of a region, and all the lines there that
follow one another. -/
structure IsRun (first last : Nat) (trees : List UnitTree) (start stop : Nat) : Prop where
  first_le : first ≤ start
  le : start ≤ stop
  le_last : stop ≤ last
  outside : ∀ l, start ≤ l → l ≤ stop → ¬ Covers trees l
  before : first < start → Covers trees (start - 1)
  after : stop < last → Covers trees (stop + 1)

/-! ### Runs -/

theorem covers_cons {tree : UnitTree} {trees : List UnitTree} {l : Nat} :
    Covers (tree :: trees) l ↔
      (tree.unit.startLine ≤ l ∧ l ≤ tree.unit.endLine) ∨ Covers trees l := by
  simp [Covers]

theorem LieIn.of_cons {first last : Nat} {tree : UnitTree} {trees : List UnitTree}
    (h : LieIn first last (tree :: trees)) : LieIn (tree.unit.endLine + 1) last trees where
  inside other hother := by
    have hbehind := List.rel_of_pairwise_cons h.ascending hother
    have hinside := h.inside other (List.mem_cons_of_mem _ hother)
    omega
  ascending := h.ascending.of_cons

theorem LieIn.le_of_covers {first last l : Nat} {trees : List UnitTree}
    (h : LieIn first last trees) (hl : Covers trees l) : first ≤ l ∧ l ≤ last := by
  obtain ⟨tree, htree, h1, h2⟩ := hl
  have := h.inside tree htree
  omega

/-- Without units a region is one run. -/
theorem isRun_nil {first last start stop : Nat} :
    IsRun first last [] start stop ↔ first ≤ last ∧ start = first ∧ stop = last := by
  have hnone : ∀ {l}, ¬ Covers [] l := fun ⟨_, htree, _⟩ => nomatch htree
  constructor
  · intro h
    have h1 := h.first_le
    have h2 := h.le
    have h3 := h.le_last
    have h4 : ¬ first < start := fun hlt => hnone (h.before hlt)
    have h5 : ¬ stop < last := fun hlt => hnone (h.after hlt)
    omega
  · rintro ⟨hle, rfl, rfl⟩
    exact ⟨Nat.le_refl _, hle, Nat.le_refl _, fun _ _ _ => hnone,
      fun hlt => absurd hlt (Nat.lt_irrefl _), fun hlt => absurd hlt (Nat.lt_irrefl _)⟩

/-- A run is in front of the first unit or behind it. -/
theorem isRun_cons {first last start stop : Nat} {tree : UnitTree} {trees : List UnitTree}
    (h : LieIn first last (tree :: trees)) :
    IsRun first last (tree :: trees) start stop ↔
      (first < tree.unit.startLine ∧ start = first ∧ stop = tree.unit.startLine - 1) ∨
        IsRun (tree.unit.endLine + 1) last trees start stop := by
  obtain ⟨hfirst, hle, hlast⟩ := h.inside tree List.mem_cons_self
  have hbehind : ∀ {l}, Covers trees l → tree.unit.endLine < l := fun hl =>
    (h.of_cons.le_of_covers hl).1
  constructor
  · intro hrun
    obtain ⟨h1, h2, h3, houtside, hbefore, hafter⟩ := hrun
    simp only [covers_cons] at houtside hbefore hafter
    by_cases hfront : stop < tree.unit.startLine
    · left
      -- Nothing in front of the first unit is covered, so the run begins with the region.
      have hstart : ¬ first < start := fun hlt => by
        rcases hbefore hlt with hl | hl
        · omega
        · have := hbehind hl
          omega
      have hstop : tree.unit.startLine ≤ stop + 1 := by
        rcases hafter (by omega) with hl | hl
        · exact hl.1
        · have := hbehind hl
          omega
      omega
    · right
      have hstart : tree.unit.endLine < start := by
        refine Nat.not_le.mp fun hstart => ?_
        exact houtside (max start tree.unit.startLine) (by omega) (by omega)
          (Or.inl ⟨by omega, by omega⟩)
      refine ⟨hstart, h2, h3, fun l hl1 hl2 hl => houtside l hl1 hl2 (Or.inr hl), ?_, ?_⟩
      · intro hlt
        exact (hbefore (by omega)).resolve_left (by omega)
      · intro hlt
        exact (hafter hlt).resolve_left (by omega)
  · rintro (⟨hlt, rfl, rfl⟩ | hrun)
    · refine ⟨Nat.le_refl _, by omega, by omega, ?_, fun h => absurd h (Nat.lt_irrefl _), ?_⟩
      · intro l hl1 hl2 hl
        rcases covers_cons.mp hl with hl | hl
        · omega
        · have := hbehind hl
          omega
      · intro _
        exact covers_cons.mpr (Or.inl ⟨by omega, by omega⟩)
    · obtain ⟨h1, h2, h3, houtside, hbefore, hafter⟩ := hrun
      refine ⟨by omega, h2, h3, ?_, ?_, fun hlt => covers_cons.mpr (Or.inr (hafter hlt))⟩
      · intro l hl1 hl2 hl
        rcases covers_cons.mp hl with hl | hl
        · omega
        · exact houtside l hl1 hl2 hl
      · intro _
        by_cases hstart : start = tree.unit.endLine + 1
        · exact covers_cons.mpr (Or.inl ⟨by omega, by omega⟩)
        · exact covers_cons.mpr (Or.inr (hbefore (by omega)))

end CodeIndex.UnitTree
