import CodeIndex.Proofs.Chunk.Cuts
import CodeIndex.Proofs.Chunk.Partition
import Mathlib.Data.List.Forall2
/-!
# Attribution of chunks

The chunks of a file are made for its units: the lines of a unit that is kept whole, and the lines
of a unit that is split which lie outside the units inside it. What these lines belong to should not
depend on whether the unit was split (`Attribution.ofUnit`).

It does in one case. A method, which is a function with a named owner, is attributed to its owner
while it is whole; split, it passes for a function without one. `attribution_exact_iff`: the chunks
of a file are attributed to their units exactly when no method is split that has a line of its own
which is not blank. `misattributed_method_header` is such a method.

Chunks do not say what unit they were made for. The cuts of the walk do (`Cut.made`), and forgetting
them leaves the pieces that the chunks are made of (`map_snd_made`). Whatever the tree claims, a
chunk has lines of the unit that it is made for (`ChunkBuild.areLinesOf_madeFor`).
-/

namespace CodeIndex

open UnitTree

/-! ### What lines belong to -/

/-- The name of the nearest type or container around a unit. -/
def UnitTree.Occurrence.ownerName? (u : Occurrence) : Option String :=
  (ownerAmong u.around).bind (·.name)

/-- The unit is a function in a named type or container. -/
def UnitTree.Occurrence.isMethod (u : Occurrence) : Bool :=
  u.tree.unit.kind == .function && u.ownerName?.isSome

/-- What the lines of a unit belong to, whole or not. -/
def Attribution.ofUnit : Option Occurrence → Attribution
  | none => ⟨.topLevel, none, none⟩
  | some u =>
    match u.tree.unit.kind, u.ownerName? with
    | .function, some owner => ⟨.method, u.tree.unit.name, some owner⟩
    | .function, none => ⟨.function, u.tree.unit.name, none⟩
    | .type, _ => ⟨.type, none, u.tree.unit.name⟩
    | .container, _ => ⟨.type, none, u.tree.unit.name⟩

/-- What a chunk says that its lines belong to. -/
def Chunk.attribution (c : Chunk) : Attribution :=
  ⟨c.kind, c.functionName, c.className⟩

/-- The lines, from the first to the last, are lines of the unit, a unit of `forest`, if there is
one. -/
def UnitTree.AreLinesOf (forest : List UnitTree) (lines : Nat × Nat) (unit : Option Occurrence) :
    Prop :=
  ∀ u ∈ unit, u ∈ occurrencesOfList [] forest ∧
    u.tree.unit.startLine ≤ lines.1 ∧ lines.2 ≤ u.tree.unit.endLine

namespace Cut

/-- The lines are those of a split method outside the units inside it. -/
def isRestOfMethod : Cut → Bool
  | gap (some u) _ _ => u.isMethod
  | _ => false

/-- The rest of a split method alone is not attributed as the unit is. -/
theorem attribution_eq_iff (cut : Cut) :
    cut.attribution = .ofUnit cut.unit? ↔ cut.isRestOfMethod = false := by
  cases cut with
  | whole u start stop =>
    refine iff_of_true ?_ rfl
    rw [attribution, unit?, Attribution.whole, Attribution.ofUnit, Occurrence.ownerName?]
    cases hkind : u.tree.unit.kind <;> cases (ownerAmong u.around).bind (·.name) <;> rfl
  | gap u start stop =>
    cases u with
    | none => exact iff_of_true rfl rfl
    | some u =>
      rw [attribution, unit?, between, Attribution.inside, Attribution.ofUnit, isRestOfMethod,
        Occurrence.isMethod]
      cases hkind : u.tree.unit.kind <;> cases u.ownerName? <;> simp

/-! ### Lines that are left -/

variable (limits : ChunkLimits) (index : LineIndex)

/-- Lines between units become pieces unless they are blank. -/
theorem pieces_gap_eq_nil_iff (u : Option Occurrence) {start stop : Nat} (hstart : 1 ≤ start)
    (hstop : stop ≤ index.size) :
    (gap u start stop).pieces limits index = [] ↔
      ∀ l, start ≤ l → l ≤ stop → index.isBlankLine l = true := by
  have hclampStart := LineIndex.clampStart_eq hstart
  have hclampStop := LineIndex.clampStop_eq hstop
  rw [pieces, Piece.gap]
  cases htrim : index.trim start stop with
  | none =>
    refine iff_of_true rfl fun l h1 h2 => ?_
    exact index.isBlankLine_of_trim_none htrim l (by omega) (by omega)
  | some range =>
    obtain ⟨first, last⟩ := range
    obtain ⟨h1, h2, h3, -, -⟩ := index.trim_spec htrim
    refine iff_of_false ?_ fun h => ?_
    · intro hnil
      have htiles := index.windows_tiles first last index.size limits.maxTokens
      rw [List.map_eq_nil_iff.mp hnil] at htiles
      have hlt : index.clampStop last < LineIndex.clampStart first := htiles
      rw [LineIndex.clampStart, LineIndex.clampStop] at hlt
      omega
    · have hblank := h first (by omega) (by omega)
      rw [(index.isBlankLine_of_trim htrim).1] at hblank
      exact Bool.false_ne_true hblank

/-- The pieces of a cut lie in its lines. -/
theorem bounds_of_mem_pieces {cut : Cut} (hcut : LiesIn 1 index.size cut) {p : Piece}
    (hp : p ∈ cut.pieces limits index) : cut.start ≤ p.start ∧ p.stop ≤ cut.stop := by
  cases cut with
  | whole u start stop =>
    rw [List.mem_singleton.mp hp]
    exact ⟨Nat.le_refl _, Nat.le_refl _⟩
  | gap u start stop =>
    have hlaid := Piece.gap_laid limits (between u) hcut.first_le hcut.le_last
    obtain ⟨hstart, -, hstop⟩ := Piece.mem_laid hlaid p hp
    exact ⟨hstart, hstop⟩

/-! ### Pieces with their cuts -/

/-- The pieces of a file with units, each with the cut it was made of. -/
def made (forest : List UnitTree) : List (Cut × Piece) :=
  (ofForest limits index forest).flatMap fun cut => (cut.pieces limits index).map (cut, ·)

theorem map_snd_made (forest : List UnitTree) :
    (made limits index forest).map (·.2) = Piece.semantic limits index forest := by
  rw [← flatMap_pieces_ofForest, made, List.map_flatMap]
  simp only [List.map_map, Function.comp_def, List.map_id']

theorem mem_made (forest : List UnitTree) (x : Cut × Piece) :
    x ∈ made limits index forest ↔
      x.1 ∈ ofForest limits index forest ∧ x.2 ∈ x.1.pieces limits index := by
  rw [made, List.mem_flatMap]
  constructor
  · rintro ⟨cut, hcut, hx⟩
    obtain ⟨p, hp, rfl⟩ := List.mem_map.mp hx
    exact ⟨hcut, hp⟩
  · rintro ⟨hcut, hp⟩
    exact ⟨x.1, hcut, List.mem_map.mpr ⟨x.2, hp, rfl⟩⟩

end Cut

/-! ### Chunks -/

namespace ChunkBuild

/-- The unit that each chunk of a file is made for, in the order of the chunks. The chunk that
covers a blank file is made for none. -/
def madeFor (limits : ChunkLimits) (t : Syntax.Tree) (content : String) :
    List (Option Occurrence) :=
  let made := Cut.made limits (LineIndex.ofText content) (UnitTree.collect t content)
  if made.isEmpty then [none] else made.map (·.1.unit?)

/-- A reading of the chunks that does not look at their numbers is one of the pieces with their
cuts. -/
theorem map_chunks_made {β : Type} {f : Chunk → β} {g : Piece → β} (limits : ChunkLimits)
    (resource : Resource) (t : Syntax.Tree) (content : String)
    (h : ∀ seq p, f (chunkOf resource (.ofText content) false seq p) = g p) :
    let made := Cut.made limits (.ofText content) (UnitTree.collect t content)
    (build limits resource (.tree t) content).chunks.map f
      = if made.isEmpty then [g (coverPiece false)] else made.map (g ·.2) := by
  intro made
  have hpieces : piecesOf limits (.ofText content) content (some t) = made.map (·.2) :=
    (Cut.map_snd_made _ _ _).symm
  show ((orCover false (piecesOf limits (.ofText content) content (some t))).mapIdx
    (chunkOf resource (.ofText content) false)).map f = _
  rw [map_chunks _ h, hpieces, orCover, List.isEmpty_map]
  split
  · rfl
  · exact List.map_map

/-- A chunk has lines of the unit that it is made for. -/
theorem areLinesOf_madeFor (limits : ChunkLimits) (resource : Resource) (t : Syntax.Tree)
    (content : String) :
    List.Forall₂ (AreLinesOf (UnitTree.collect t content))
      ((build limits resource (.tree t) content).chunks.map fun c => (c.startLine, c.endLine))
      (madeFor limits t content) := by
  rw [map_chunks_made (g := fun p => (p.start, p.stop)) limits resource t content fun _ _ => rfl,
    madeFor]
  split
  · exact .cons nofun .nil
  · rw [List.forall₂_map_left_iff, List.forall₂_map_right_iff, List.forall₂_same]
    intro x hx u hu
    obtain ⟨hcut, hp⟩ := (Cut.mem_made limits _ _ x).mp hx
    obtain ⟨hmem, hstart, hstop⟩ := (Cut.isOf_ofForest limits _ _ x.1 hcut).lies u hu
    obtain ⟨hpstart, hpstop⟩ := Cut.bounds_of_mem_pieces limits _
      (Cut.bounds_ofRegion limits _ _ _ _ _ x.1 hcut) hp
    exact ⟨hmem, Nat.le_trans hstart hpstart, Nat.le_trans hpstop hstop⟩

/-- The chunks of a file with a tree say what their cuts do. -/
theorem map_attribution_chunks (limits : ChunkLimits) (resource : Resource) (t : Syntax.Tree)
    (content : String) :
    let made := Cut.made limits (LineIndex.ofText content) (UnitTree.collect t content)
    (build limits resource (.tree t) content).chunks.map Chunk.attribution
      = if made.isEmpty then [.topLevel] else made.map (·.1.attribution) := by
  intro made
  rw [map_chunks_made (g := Piece.attribution) _ _ _ _ fun _ _ => rfl]
  refine if_congr Iff.rfl rfl (List.map_congr_left fun x hx => ?_)
  exact Cut.attribution_of_mem_pieces ((Cut.mem_made limits _ _ x).mp hx).2

end ChunkBuild

/-- **Attribution is exact** in every file but those with a split method that has a line of its own,
outside the units inside it, which is not blank. Each chunk has lines of the unit that it is made
for. -/
theorem attribution_exact_iff (limits : ChunkLimits) (resource : Resource) (t : Syntax.Tree)
    (content : String) :
    let chunks := (ChunkBuild.build limits resource (.tree t) content).chunks
    let units := ChunkBuild.madeFor limits t content
    List.Forall₂ (AreLinesOf (UnitTree.collect t content))
      (chunks.map fun c => (c.startLine, c.endLine)) units ∧
    (chunks.map Chunk.attribution = units.map .ofUnit ↔
      ∀ cut ∈ Cut.ofForest limits (LineIndex.ofText content) (UnitTree.collect t content),
        cut.isRestOfMethod → ∀ l, cut.start ≤ l → l ≤ cut.stop →
          (LineIndex.ofText content).isBlankLine l = true) := by
  intro chunks units
  refine ⟨ChunkBuild.areLinesOf_madeFor limits resource t content, ?_⟩
  subst chunks units
  have hchunks := ChunkBuild.map_attribution_chunks limits resource t content
  have hmem := Cut.mem_made limits (LineIndex.ofText content) (UnitTree.collect t content)
  rw [ChunkBuild.madeFor]
  generalize Cut.made limits (LineIndex.ofText content) (UnitTree.collect t content) = made at *
  rw [hchunks]
  -- A gap of a method has no piece exactly when it is blank.
  have hrest : ∀ cut ∈ Cut.ofForest limits (LineIndex.ofText content) (UnitTree.collect t content),
      cut.isRestOfMethod →
        (cut.pieces limits (LineIndex.ofText content) = [] ↔ ∀ l, cut.start ≤ l → l ≤ cut.stop →
          (LineIndex.ofText content).isBlankLine l = true) := by
    intro cut hcut hmethod
    obtain ⟨hstart, -, hstop⟩ := Cut.bounds_ofRegion limits _ _ _ _ _ cut hcut
    cases cut with
    | whole u start stop => cases hmethod
    | gap u start stop => exact Cut.pieces_gap_eq_nil_iff limits _ u hstart hstop
  calc (if made.isEmpty then [Attribution.topLevel] else made.map (·.1.attribution))
        = (if made.isEmpty then [none] else made.map (·.1.unit?)).map .ofUnit
      ↔ ∀ x ∈ made, x.1.isRestOfMethod = false := by
        split
        · rename_i hempty
          rw [List.isEmpty_iff.mp hempty]
          exact iff_of_true rfl nofun
        · rw [List.map_map, List.map_inj_left]
          exact forall₂_congr fun x _ => x.1.attribution_eq_iff
    _ ↔ _ := by
        constructor
        · intro h cut hcut hmethod
          refine (hrest cut hcut hmethod).mp (List.eq_nil_iff_forall_not_mem.mpr fun p hp => ?_)
          have := h (cut, p) ((hmem _).mpr ⟨hcut, hp⟩)
          exact Bool.false_ne_true (this.symm.trans hmethod)
        · intro h x hx
          obtain ⟨hcut, hp⟩ := (hmem x).mp hx
          refine Bool.eq_false_iff.mpr fun hmethod => ?_
          rw [(hrest x.1 hcut hmethod).mpr (h x.1 hcut hmethod)] at hp
          cases hp

/-- A class over the budget with a method over the budget, in which there is a function. The first
line of the method passes for a function outside the class; the function inside it does not. -/
theorem misattributed_method_header :
    let t : Syntax.Tree :=
      ⟨"python", .python,
        #[⟨"module", none, 0, 32, 1, 3, none, false⟩,
          ⟨"class_definition", none, 0, 31, 1, 3, some 0, false⟩,
          ⟨"identifier", some "name", 6, 7, 1, 1, some 1, false⟩,
          ⟨"block", some "body", 10, 31, 2, 3, some 1, false⟩,
          ⟨"function_definition", none, 10, 31, 2, 3, some 3, false⟩,
          ⟨"identifier", some "name", 14, 15, 2, 2, some 4, false⟩,
          ⟨"block", some "body", 21, 31, 3, 3, some 4, false⟩,
          ⟨"function_definition", none, 21, 31, 3, 3, some 6, false⟩,
          ⟨"identifier", some "name", 25, 26, 3, 3, some 7, false⟩], by decide, _, rfl⟩
    let file := Resource.ofPath "/r" "a.py" .practice "python" .epoch
    let source := "class A:\n def m():\n  def f(): 0\n"
    let chunks := (ChunkBuild.build (.ofNats 5 80) file (.tree t) source).chunks
    (ChunkBuild.madeFor (.ofNats 5 80) t source).map Attribution.ofUnit
      = [⟨.type, none, some "A"⟩, ⟨.method, some "m", some "A"⟩, ⟨.method, some "f", some "A"⟩] ∧
    chunks.map Chunk.attribution
      = [⟨.type, none, some "A"⟩, ⟨.function, some "m", none⟩, ⟨.method, some "f", some "A"⟩] ∧
    ¬ chunks.map Chunk.attribution
      = (ChunkBuild.madeFor (.ofNats 5 80) t source).map Attribution.ofUnit := by
  intro t file source chunks
  exact ⟨by decide +kernel, by decide +kernel, by decide +kernel⟩

end CodeIndex
