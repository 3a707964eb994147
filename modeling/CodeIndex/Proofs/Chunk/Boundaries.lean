import CodeIndex.Proofs.Chunk.Cuts
import CodeIndex.Proofs.Chunk.Partition
import CodeIndex.Proofs.Lines.Greedy
import CodeIndex.Proofs.Unit.Runs
import Mathlib.Data.List.Nodup
/-!
# Where chunks begin and end

When the units of a file are laid out as they are nested (`UnitTree.IsLaidOut`), nothing is cut off
when the walk meets a unit, and the chunks of the file can be told from its units and its text
(`IsBoundary`). `chunks_follow_units`: a unit is a chunk when all the units around it exceed the
budget and it is within the budget or has no units inside it. The lines of the file, and of each
unit that is split, that lie outside the units inside fall into runs; each is trimmed and cut into
windows. Nothing else is a chunk, except that line one is when there would be none.

A budget of nothing counts as one token, and a window that is a single line may exceed the budget
(`not_within_budget`).

The walk of a region is the induction here (`Cut.mem_ofRegion_iff`): in front of the first unit
there is a run or nothing, and what lies behind it is a region again (`isRun_cons`).
-/

namespace CodeIndex

open UnitTree

/-! ### Units that are kept and units that are split -/

/-- The unit has more tokens than the budget. -/
def CodeUnit.Exceeds (maxTokens : Nat) (content : String) (unit : CodeUnit) : Prop :=
  maxTokens < Lines.tokens content unit.startLine unit.endLine

instance (maxTokens : Nat) (content : String) (unit : CodeUnit) :
    Decidable (unit.Exceeds maxTokens content) :=
  Nat.decLt _ _

namespace UnitTree.Occurrence

/-- All units around this one exceed the budget. -/
def IsReached (maxTokens : Nat) (content : String) (u : Occurrence) : Prop :=
  ∀ v ∈ u.around, v.Exceeds maxTokens content

/-- The unit is reached, and it has no units inside it or is within the budget. -/
structure IsKept (maxTokens : Nat) (content : String) (u : Occurrence) : Prop where
  reached : u.IsReached maxTokens content
  fits : u.tree.nested = [] ∨ ¬ u.tree.unit.Exceeds maxTokens content

/-- The unit is reached and exceeds the budget, and it has units inside it. -/
structure IsSplit (maxTokens : Nat) (content : String) (u : Occurrence) : Prop where
  reached : u.IsReached maxTokens content
  exceeds : u.tree.unit.Exceeds maxTokens content
  nested_ne_nil : u.tree.nested ≠ []

instance (maxTokens : Nat) (content : String) (u : Occurrence) :
    Decidable (u.IsKept maxTokens content) :=
  decidable_of_iff
    ((∀ v ∈ u.around, v.Exceeds maxTokens content) ∧
      (u.tree.nested = [] ∨ ¬ u.tree.unit.Exceeds maxTokens content))
    ⟨fun h => ⟨h.1, h.2⟩, fun h => ⟨h.reached, h.fits⟩⟩

variable {maxTokens : Nat} {content : String} {u : Occurrence}

theorem isKept_or_isSplit (h : u.IsReached maxTokens content) :
    u.IsKept maxTokens content ∨ u.IsSplit maxTokens content := by
  by_cases hnested : u.tree.nested = []
  · exact .inl ⟨h, .inl hnested⟩
  · by_cases hexceeds : u.tree.unit.Exceeds maxTokens content
    · exact .inr ⟨h, hexceeds, hnested⟩
    · exact .inl ⟨h, .inr hexceeds⟩

theorem IsKept.not_isSplit (h : u.IsKept maxTokens content) : ¬ u.IsSplit maxTokens content :=
  fun hsplit => h.fits.elim hsplit.nested_ne_nil fun hfits => hfits hsplit.exceeds

/-- Nothing inside a unit that is kept is reached. -/
theorem IsKept.not_isReached (h : u.IsKept maxTokens content) {v : Occurrence}
    (hv : v ∈ occurrencesOfList (u.around ++ [u.tree.unit]) u.tree.nested) :
    ¬ v.IsReached maxTokens content := by
  intro hreached
  rcases h.fits with hnested | hfits
  · rw [hnested] at hv
    cases hv
  · have hself : u.tree.unit ∈ v.around :=
      subset_aroundOfList _ _ v hv (List.mem_append_right _ (List.mem_singleton.mpr rfl))
    exact hfits (hreached _ hself)

end UnitTree.Occurrence

/-- One of the windows of a run of lines, in a region, outside the units there. -/
def IsRunWindow (maxTokens : Nat) (content : String) (first last : Nat) (trees : List UnitTree)
    (start stop : Nat) : Prop :=
  ∃ runStart runStop, IsRun first last trees runStart runStop ∧
    Lines.IsWindow content maxTokens runStart runStop start stop

/-- The lines at which a file with the units `forest` is cut. -/
inductive IsBoundary (maxTokens : Nat) (content : String) (forest : List UnitTree) :
    Nat → Nat → Prop where
  | unit (u : Occurrence) : u ∈ occurrencesOfList [] forest → u.IsKept maxTokens content →
      IsBoundary maxTokens content forest u.tree.unit.startLine u.tree.unit.endLine
  /-- Lines outside every unit. -/
  | file {start stop : Nat} :
      IsRunWindow maxTokens content 1 (Lines.ofText content).length forest start stop →
      IsBoundary maxTokens content forest start stop
  /-- Lines of a unit that is split, outside the units inside it. -/
  | rest (u : Occurrence) {start stop : Nat} : u ∈ occurrencesOfList [] forest →
      u.IsSplit maxTokens content →
      IsRunWindow maxTokens content u.tree.unit.startLine u.tree.unit.endLine u.tree.nested
        start stop →
      IsBoundary maxTokens content forest start stop

/-! ### Cuts of units that are laid out -/

namespace Cut

variable (limits : ChunkLimits) (content : String)

/-- A cut of the lines that are a unit's own: all of them or a run. -/
inductive IsCutOf (u : Occurrence) : Cut → Prop where
  | whole : u.IsKept limits.maxTokens content →
      IsCutOf u (whole u u.tree.unit.startLine u.tree.unit.endLine)
  | gap {start stop : Nat} : u.IsSplit limits.maxTokens content →
      IsRun u.tree.unit.startLine u.tree.unit.endLine u.tree.nested start stop →
      IsCutOf u (gap (some u) start stop)

variable {limits content}

theorem IsCutOf.isReached {u : Occurrence} {cut : Cut} (h : IsCutOf limits content u cut) :
    u.IsReached limits.maxTokens content := by
  cases h with
  | whole hkept => exact hkept.reached
  | gap hsplit _ => exact hsplit.reached

theorem isCutOf_iff_of_isKept {u : Occurrence} {cut : Cut}
    (h : u.IsKept limits.maxTokens content) :
    IsCutOf limits content u cut ↔
      cut = .whole u u.tree.unit.startLine u.tree.unit.endLine := by
  constructor
  · rintro (_ | ⟨hsplit, -⟩)
    · rfl
    · exact absurd hsplit h.not_isSplit
  · rintro rfl
    exact .whole h

theorem isCutOf_iff_of_isSplit {u : Occurrence} {cut : Cut}
    (h : u.IsSplit limits.maxTokens content) :
    IsCutOf limits content u cut ↔
      ∃ first last, IsRun u.tree.unit.startLine u.tree.unit.endLine u.tree.nested first last ∧
        cut = .gap (some u) first last := by
  constructor
  · rintro (hkept | ⟨-, hrun⟩)
    · exact absurd h hkept.not_isSplit
    · exact ⟨_, _, hrun, rfl⟩
  · rintro ⟨first, last, hrun, rfl⟩
    exact .gap h hrun

variable (limits content)

/-! ### The walk along units that are laid out -/

/-- The walk takes the first unit of a region as it is. -/
theorem ofRegion_cons {unit : Option Occurrence} {cursor stop : Nat} (index : LineIndex)
    {tree : UnitTree} {trees : List UnitTree} (h : LieIn cursor stop (tree :: trees)) :
    ofRegion limits index unit cursor stop (tree :: trees)
      = (if cursor < tree.unit.startLine
          then [gap unit cursor (tree.unit.startLine - 1)] else []) ++
        ofUnit limits index (unitsAround unit) tree.unit.startLine tree.unit.endLine tree ++
        ofRegion limits index unit (tree.unit.endLine + 1) stop trees := by
  obtain ⟨hstart, hle, hstop⟩ := h.inside tree List.mem_cons_self
  have hfirst : max tree.unit.startLine cursor = tree.unit.startLine := Nat.max_eq_left hstart
  have hlast : min tree.unit.endLine stop = tree.unit.endLine := Nat.min_eq_left hstop
  rw [ofRegion, hfirst, hlast, if_neg (Nat.not_lt.mpr hle)]

/-- A region is cut into its runs and the units that are in it. -/
theorem mem_ofRegion_iff {unit : Option Occurrence} {cursor stop : Nat} {cut : Cut}
    (index : LineIndex) {trees : List UnitTree} (h : LieIn cursor stop trees) :
    cut ∈ ofRegion limits index unit cursor stop trees ↔
      (∃ first last, IsRun cursor stop trees first last ∧ cut = gap unit first last) ∨
        ∃ tree ∈ trees, cut ∈
          ofUnit limits index (unitsAround unit) tree.unit.startLine tree.unit.endLine tree := by
  induction trees generalizing cursor with
  | nil =>
    rw [ofRegion]
    constructor
    · intro hcut
      split at hcut
      · rename_i hle
        exact .inl ⟨cursor, stop, isRun_nil.mpr ⟨hle, rfl, rfl⟩, List.mem_singleton.mp hcut⟩
      · cases hcut
    · rintro (⟨first, last, hrun, rfl⟩ | ⟨tree, htree, -⟩)
      · obtain ⟨hle, rfl, rfl⟩ := isRun_nil.mp hrun
        rw [if_pos hle]
        exact List.mem_singleton.mpr rfl
      · cases htree
  | cons tree trees ih =>
    rw [ofRegion_cons limits index h, List.mem_append, List.mem_append, ih h.of_cons]
    constructor
    · rintro ((hcut | hcut) | ⟨first, last, hrun, rfl⟩ | ⟨other, hother, hcut⟩)
      · split at hcut
        · rename_i hlt
          exact .inl ⟨_, _, (isRun_cons h).mpr (.inl ⟨hlt, rfl, rfl⟩), List.mem_singleton.mp hcut⟩
        · cases hcut
      · exact .inr ⟨tree, List.mem_cons_self, hcut⟩
      · exact .inl ⟨first, last, (isRun_cons h).mpr (.inr hrun), rfl⟩
      · exact .inr ⟨other, List.mem_cons_of_mem _ hother, hcut⟩
    · rintro (⟨first, last, hrun, rfl⟩ | ⟨other, hother, hcut⟩)
      · rcases (isRun_cons h).mp hrun with ⟨hlt, rfl, rfl⟩ | hrun
        · rw [if_pos hlt]
          exact .inl (.inl (List.mem_singleton.mpr rfl))
        · exact .inr (.inl ⟨first, last, hrun, rfl⟩)
      · rcases List.mem_cons.mp hother with rfl | hother
        · exact .inl (.inr hcut)
        · exact .inr (.inr ⟨other, hother, hcut⟩)

theorem ofUnit_of_isKept {u : Occurrence} (h : u.IsKept limits.maxTokens content) :
    ofUnit limits (.ofText content) u.around u.tree.unit.startLine u.tree.unit.endLine u.tree
      = [whole u u.tree.unit.startLine u.tree.unit.endLine] := by
  obtain ⟨around, unit, nested⟩ := u
  rw [ofUnit, Lines.tokens_eq]
  exact if_neg fun hsplit => h.not_isSplit ⟨h.reached, hsplit.1, hsplit.2⟩

theorem ofUnit_of_isSplit {u : Occurrence} (h : u.IsSplit limits.maxTokens content) :
    ofUnit limits (.ofText content) u.around u.tree.unit.startLine u.tree.unit.endLine u.tree
      = ofRegion limits (.ofText content) (some u) u.tree.unit.startLine u.tree.unit.endLine
        u.tree.nested := by
  obtain ⟨around, unit, nested⟩ := u
  rw [ofUnit, Lines.tokens_eq]
  exact if_pos ⟨h.exceeds, h.nested_ne_nil⟩

mutual

/-- The cuts of a tree that the walk reaches are those of the units it reaches in the tree. -/
theorem mem_ofUnit_iff (cut : Cut) (around : List CodeUnit)
    (haround : ∀ v ∈ around, v.Exceeds limits.maxTokens content) :
    ∀ tree : UnitTree,
      (∀ u ∈ occurrences around tree,
        LieIn u.tree.unit.startLine u.tree.unit.endLine u.tree.nested) →
      (cut ∈ ofUnit limits (.ofText content) around tree.unit.startLine tree.unit.endLine tree ↔
        ∃ u ∈ occurrences around tree, IsCutOf limits content u cut)
  | .node unit nested, hlaid => by
    let self : Occurrence := ⟨around, .node unit nested⟩
    have hlies : LieIn self.tree.unit.startLine self.tree.unit.endLine self.tree.nested :=
      hlaid self (mem_occurrences_self around _)
    rw [occurrences] at hlaid ⊢
    simp only [List.mem_cons, exists_eq_or_imp]
    rcases Occurrence.isKept_or_isSplit (u := self) haround with hkept | hsplit
    · -- Nothing further inside is reached.
      have hinside : ¬ ∃ u ∈ occurrencesOfList (around ++ [unit]) nested,
          IsCutOf limits content u cut :=
        fun ⟨u, hu, hcut⟩ => hkept.not_isReached hu hcut.isReached
      rw [ofUnit_of_isKept limits content hkept, List.mem_singleton,
        isCutOf_iff_of_isKept hkept, or_iff_left hinside]
    · have hinside : ∀ v ∈ around ++ [unit], v.Exceeds limits.maxTokens content := by
        intro v hv
        rcases List.mem_append.mp hv with hv | hv
        · exact haround v hv
        · exact List.mem_singleton.mp hv ▸ hsplit.exceeds
      have ih := mem_ofUnits_iff cut (around ++ [unit]) hinside nested
        fun u hu => hlaid u (List.mem_cons_of_mem _ hu)
      rw [ofUnit_of_isSplit limits content hsplit, mem_ofRegion_iff limits _ hlies,
        isCutOf_iff_of_isSplit hsplit]
      exact or_congr_right ih

theorem mem_ofUnits_iff (cut : Cut) (around : List CodeUnit)
    (haround : ∀ v ∈ around, v.Exceeds limits.maxTokens content) :
    ∀ trees : List UnitTree,
      (∀ u ∈ occurrencesOfList around trees,
        LieIn u.tree.unit.startLine u.tree.unit.endLine u.tree.nested) →
      ((∃ tree ∈ trees,
        cut ∈ ofUnit limits (.ofText content) around tree.unit.startLine tree.unit.endLine tree) ↔
        ∃ u ∈ occurrencesOfList around trees, IsCutOf limits content u cut)
  | [], _ => by simp [occurrencesOfList]
  | tree :: trees, hlaid => by
    rw [occurrencesOfList] at hlaid ⊢
    have htree := mem_ofUnit_iff cut around haround tree
      fun u hu => hlaid u (List.mem_append_left _ hu)
    have htrees := mem_ofUnits_iff cut around haround trees
      fun u hu => hlaid u (List.mem_append_right _ hu)
    simp only [List.mem_cons, List.mem_append, or_and_right, exists_or, exists_eq_left, htree,
      htrees]

end

/-- The cuts of a file are the runs of its lines outside every unit and those of the units that the
walk reaches. -/
theorem mem_ofForest_iff (cut : Cut) {forest : List UnitTree}
    (h : IsLaidOut (Lines.ofText content).length forest) :
    cut ∈ ofForest limits (.ofText content) forest ↔
      (∃ first last, IsRun 1 (Lines.ofText content).length forest first last ∧
        cut = gap none first last) ∨
      ∃ u ∈ occurrencesOfList [] forest, IsCutOf limits content u cut := by
  rw [ofForest, LineIndex.size_ofText, mem_ofRegion_iff limits _ h.outermost]
  exact or_congr_right (mem_ofUnits_iff limits content cut [] nofun forest h.nested)

/-! ### Lines of pieces -/

/-- A run is cut into its windows. -/
theorem mem_lines_pieces_gap {unit : Option Occurrence} {start stop first last : Nat}
    (hstart : 1 ≤ start) (hstop : stop ≤ (LineIndex.ofText content).size) :
    (first, last) ∈ ((gap unit start stop).pieces limits (.ofText content)).map
        (fun p => (p.start, p.stop)) ↔
      Lines.IsWindow content limits.maxTokens start stop first last := by
  rw [pieces, Piece.gap]
  cases htrim : (LineIndex.ofText content).trim start stop with
  | none =>
    refine iff_of_false List.not_mem_nil ?_
    rintro ⟨start', stop', spans, htrimmed, -, -⟩
    rw [(Lines.trim_eq_some_iff hstart hstop).mpr htrimmed] at htrim
    cases htrim
  | some range =>
    obtain ⟨start', stop'⟩ := range
    have htrimmed := (Lines.trim_eq_some_iff hstart hstop).mp htrim
    have hstart' : 1 ≤ start' := Nat.le_trans hstart htrimmed.start_le
    have hstop' : stop' ≤ (LineIndex.ofText content).size :=
      Nat.le_trans htrimmed.le_stop hstop
    simp only [Piece.ofSpans, List.map_map, Function.comp_def]
    constructor
    · intro hmem
      exact ⟨start', stop', _, htrimmed, (Lines.areWindows_iff hstart' hstop').mpr rfl, hmem⟩
    · rintro ⟨start'', stop'', spans, htrimmed', hwindows, hmem⟩
      obtain ⟨rfl, rfl⟩ := htrimmed.unique htrimmed'
      rwa [← (Lines.areWindows_iff hstart' hstop').mp hwindows] at hmem

variable {content} in
/-- The lines of the pieces of a file are its boundaries. -/
theorem mem_lines_semantic {forest : List UnitTree}
    (h : IsLaidOut (Lines.ofText content).length forest) (start stop : Nat) :
    (start, stop) ∈ (Piece.semantic limits (.ofText content) forest).map
        (fun p => (p.start, p.stop)) ↔
      IsBoundary limits.maxTokens content forest start stop := by
  have hgap : ∀ {unit first last},
      gap unit first last ∈ ofForest limits (.ofText content) forest →
      ((start, stop) ∈ ((gap unit first last).pieces limits (.ofText content)).map
          (fun p => (p.start, p.stop)) ↔
        Lines.IsWindow content limits.maxTokens first last start stop) := by
    intro unit first last hcut
    have hbounds := bounds_ofRegion limits _ _ _ _ _ _ hcut
    exact mem_lines_pieces_gap limits content hbounds.first_le hbounds.le_last
  have hmem := fun cut => mem_ofForest_iff limits content cut h
  rw [← flatMap_pieces_ofForest, List.map_flatMap, List.mem_flatMap]
  constructor
  · rintro ⟨cut, hcut, hlines⟩
    rcases (hmem cut).mp hcut with ⟨first, last, hrun, rfl⟩ | ⟨u, hu, hof⟩
    · exact .file ⟨first, last, hrun, (hgap hcut).mp hlines⟩
    · cases hof with
      | whole hkept =>
        obtain ⟨rfl, rfl⟩ := Prod.mk.inj (List.mem_singleton.mp hlines)
        exact .unit u hu hkept
      | gap hsplit hrun => exact .rest u hu hsplit ⟨_, _, hrun, (hgap hcut).mp hlines⟩
  · intro hboundary
    cases hboundary with
    | unit u hu hkept =>
      exact ⟨_, (hmem _).mpr (.inr ⟨u, hu, .whole hkept⟩), List.mem_singleton.mpr rfl⟩
    | file hwindow =>
      obtain ⟨first, last, hrun, hwindow⟩ := hwindow
      have hcut := (hmem _).mpr (.inl ⟨first, last, hrun, rfl⟩)
      exact ⟨_, hcut, (hgap hcut).mpr hwindow⟩
    | rest u hu hsplit hwindow =>
      obtain ⟨first, last, hrun, hwindow⟩ := hwindow
      have hcut := (hmem _).mpr (.inr ⟨u, hu, .gap hsplit hrun⟩)
      exact ⟨_, hcut, (hgap hcut).mpr hwindow⟩

end Cut

/-! ### Chunks -/

namespace ChunkBuild

/-- The pieces of a file, or its cover, follow one another. -/
theorem pairwise_lines_orCover {index : LineIndex} {cursor stop : Nat} {isFallback : Bool}
    {pieces : List Piece} (h : Piece.Laid index cursor stop pieces) :
    ((orCover isFallback pieces).map fun p => (p.start, p.stop)).Pairwise
      fun a b => a.2 < b.1 := by
  cases pieces with
  | nil => exact List.pairwise_singleton _ _
  | cons piece pieces => exact List.pairwise_map.mpr (Piece.pairwise_laid h)

/-- No two pieces of a file have the same lines. -/
theorem nodup_lines_orCover {index : LineIndex} {cursor stop : Nat} {isFallback : Bool}
    {pieces : List Piece} (h : Piece.Laid index cursor stop pieces) :
    ((orCover isFallback pieces).map fun p => (p.start, p.stop)).Nodup := by
  cases pieces with
  | nil => exact List.nodup_singleton _
  | cons piece pieces =>
    refine List.pairwise_map.mpr ((Piece.pairwise_laid h).imp_of_mem ?_)
    intro p q hp _ hlt heq
    have hle := (Piece.mem_laid h p hp).2.1
    obtain ⟨hstart, -⟩ := Prod.mk.inj heq
    omega

end ChunkBuild

namespace UnitTree.Occurrence

/-- A unit within the budget is kept when it is right inside a unit that is split. -/
theorem IsSplit.isKept_nested {maxTokens : Nat} {content : String} {u : Occurrence}
    (h : u.IsSplit maxTokens content) {tree : UnitTree}
    (hfits : ¬ tree.unit.Exceeds maxTokens content) :
    IsKept maxTokens content ⟨u.around ++ [u.tree.unit], tree⟩ where
  reached v hv := by
    rcases List.mem_append.mp hv with hv | hv
    · exact h.reached v hv
    · exact List.mem_singleton.mp hv ▸ h.exceeds
  fits := .inr hfits

end UnitTree.Occurrence

/-- **Chunks follow the units** of a file in which these are laid out. The chunks, in ascending
order, have the lines of the boundaries, and line one when there is no boundary; the budget is at
least one token. A unit that is split and has only units within the budget inside it yields one
chunk for each of them. -/
theorem chunks_follow_units (maxTokens windowLines : Nat) (resource : Resource) (t : Syntax.Tree)
    (content : String)
    (h : IsLaidOut (Lines.ofText content).length (UnitTree.collect t content)) :
    let budget := max maxTokens 1
    let forest := UnitTree.collect t content
    let chunks :=
      (ChunkBuild.build (.ofNats maxTokens windowLines) resource (.tree t) content).chunks
    let lines := chunks.map fun c => (c.startLine, c.endLine)
    (∀ start stop, (start, stop) ∈ lines ↔
      IsBoundary budget content forest start stop ∨
        ((∀ start stop, ¬ IsBoundary budget content forest start stop) ∧ start = 1 ∧ stop = 1)) ∧
    lines.Pairwise (fun a b => a.2 < b.1) ∧
    ∀ u ∈ occurrencesOfList [] forest, u.IsSplit budget content →
      (∀ tree ∈ u.tree.nested, ¬ tree.unit.Exceeds budget content) →
      ∀ tree ∈ u.tree.nested, lines.count (tree.unit.startLine, tree.unit.endLine) = 1 := by
  intro budget forest chunks lines
  have hlines : lines = (ChunkBuild.orCover false
      (Piece.semantic (.ofNats maxTokens windowLines) (.ofText content) forest)).map
        fun p => (p.start, p.stop) := ChunkBuild.map_lines_chunks _ _ _ _
  have hlaid : Piece.Laid (.ofText content) 1 _ _ :=
    Piece.semantic_laid (.ofNats maxTokens windowLines) forest
  have hmem : ∀ start stop, (start, stop) ∈ lines ↔
      IsBoundary budget content forest start stop ∨
        ((∀ start stop, ¬ IsBoundary budget content forest start stop) ∧
          start = 1 ∧ stop = 1) := by
    intro start stop
    have hpieces := Cut.mem_lines_semantic (.ofNats maxTokens windowLines) h
    rw [hlines]
    generalize Piece.semantic _ _ forest = pieces at hpieces
    cases pieces with
    | nil =>
      have hnone : ∀ a b, ¬ IsBoundary budget content forest a b :=
        fun a b hboundary => nomatch (hpieces a b).mpr hboundary
      rw [or_iff_right (hnone start stop), and_iff_right hnone, ← Prod.mk.injEq]
      exact List.mem_singleton
    | cons piece pieces =>
      have hsome := (hpieces piece.start piece.stop).mp List.mem_cons_self
      rw [or_iff_left fun hnone => hnone.1 _ _ hsome]
      exact hpieces start stop
  refine ⟨hmem, hlines ▸ ChunkBuild.pairwise_lines_orCover hlaid, ?_⟩
  intro u hu hsplit hfits tree htree
  have hboundary : IsBoundary budget content forest tree.unit.startLine tree.unit.endLine :=
    .unit ⟨_, tree⟩ (mem_occurrencesOfList_of_mem_nested [] forest u hu tree htree)
      (hsplit.isKept_nested (hfits tree htree))
  have hnodup : lines.Nodup := hlines ▸ ChunkBuild.nodup_lines_orCover hlaid
  exact List.nodup_iff_count_eq_one.mp hnodup _ ((hmem _ _).mpr (.inl hboundary))

/-- A class over the budget with two methods within it: its first line and each method are chunks.
-/
theorem chunks_follow_units_methods :
    let t : Syntax.Tree :=
      ⟨"python", .python,
        #[⟨"module", none, 0, 33, 1, 3, none, false⟩,
          ⟨"class_definition", none, 0, 32, 1, 3, some 0, false⟩,
          ⟨"identifier", some "name", 6, 7, 1, 1, some 1, false⟩,
          ⟨"block", some "body", 10, 32, 2, 3, some 1, false⟩,
          ⟨"function_definition", none, 10, 20, 2, 2, some 3, false⟩,
          ⟨"identifier", some "name", 14, 15, 2, 2, some 4, false⟩,
          ⟨"function_definition", none, 22, 32, 3, 3, some 3, false⟩,
          ⟨"identifier", some "name", 26, 27, 3, 3, some 6, false⟩], by decide, _, rfl⟩
    let source := "class A:\n def m(): 0\n def n(): 1\n"
    let forest := UnitTree.collect t source
    IsLaidOut (Lines.ofText source).length forest ∧
    ∀ start stop,
      IsBoundary 5 source forest start stop ↔ (start, stop) ∈ [(1, 1), (2, 2), (3, 3)] := by
  intro t source forest
  have hlaid : IsLaidOut (Lines.ofText source).length forest := by decide +kernel
  refine ⟨hlaid, fun start stop => ?_⟩
  obtain ⟨hmem, -, -⟩ := chunks_follow_units 5 80
    (.ofPath "/r" "a.py" .practice "python" .epoch) t source hlaid
  have hlines : (ChunkBuild.build (.ofNats 5 80) (.ofPath "/r" "a.py" .practice "python" .epoch)
      (.tree t) source).chunks.map (fun c => (c.startLine, c.endLine))
        = [(1, 1), (2, 2), (3, 3)] := by decide +kernel
  rw [hlines] at hmem
  have hsome : IsBoundary 5 source forest 2 2 :=
    ((hmem 2 2).mp (by decide)).resolve_right fun hnone => absurd hnone.2.1 (by decide)
  exact ((hmem start stop).trans (or_iff_left fun hnone => hnone.1 2 2 hsome)).symm

/-- Two files whose chunks are not told from their units by the budget given. A class of two lines
with a function inside it exceeds a budget of nothing and is a chunk, its function is not. A line
outside every unit makes a window that exceeds the budget. -/
theorem not_within_budget :
    let t : Syntax.Tree :=
      ⟨"python", .python,
        #[⟨"module", none, 0, 4, 1, 2, none, false⟩,
          ⟨"class_definition", none, 0, 3, 1, 2, some 0, false⟩,
          ⟨"function_definition", none, 2, 3, 2, 2, some 1, false⟩], by decide, _, rfl⟩
    let plain : Syntax.Tree :=
      ⟨"python", .python, #[⟨"module", none, 0, 12, 1, 2, none, false⟩], by decide, _, rfl⟩
    let file := Resource.ofPath "/r" "a.py" .practice "python" .epoch
    let source := "a\nb\n"
    let forest := UnitTree.collect t source
    let lines := (ChunkBuild.build (.ofNats 0 80) file (.tree t) source).chunks.map
      fun c => (c.startLine, c.endLine)
    (IsLaidOut (Lines.ofText source).length forest ∧
      ¬ ∀ start stop, (start, stop) ∈ lines ↔
        IsBoundary 0 source forest start stop ∨
          ((∀ start stop, ¬ IsBoundary 0 source forest start stop) ∧ start = 1 ∧ stop = 1)) ∧
    (ChunkBuild.build (.ofNats 1 80) file (.tree plain) "y\nx = 12345\n").chunks.map
      (fun c => (c.startLine, c.endLine, c.tokenCount)) = [(1, 1, 1), (2, 2, 3)] := by
  intro t plain file source forest lines
  have hboundary : IsBoundary 0 source forest 2 2 := by
    have hkept : ∃ u ∈ occurrencesOfList [] forest, u.IsKept 0 source ∧
        u.tree.unit.startLine = 2 ∧ u.tree.unit.endLine = 2 := by decide +kernel
    obtain ⟨u, hu, hkept, hstart, hstop⟩ := hkept
    have hunit := IsBoundary.unit u hu hkept
    rwa [hstart, hstop] at hunit
  have hlines : (2, 2) ∉ lines := by decide +kernel
  exact ⟨⟨by decide +kernel, fun h => hlines ((h 2 2).mpr (.inl hboundary))⟩, by decide +kernel⟩

end CodeIndex
