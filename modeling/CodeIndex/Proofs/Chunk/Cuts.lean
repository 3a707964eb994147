import CodeIndex.Chunk.Build
import CodeIndex.Proofs.Unit.Occurrences
/-!
# Cuts of a walk

The walk along the units decides twice about lines: that a unit is kept whole, and that lines lie
between units. Each such decision is a cut, which knows the unit that the lines belong to. A whole
unit becomes one piece, a gap its windows (`Cut.pieces`), and the pieces of the walk are those of
its cuts in order (`flatMap_pieces_ofForest`). What the walk does not tell of a piece, the unit that
it was made for, can so be said of its cut.

Whatever lines the units claim, a cut is not empty and lies in its region (`bounds_ofRegion`). Its
lines are lines of its unit, and a whole unit is within the budget or has no units inside it
(`isOf_ofRegion`).
-/

namespace CodeIndex

open UnitTree

/-- What is decided about some lines. -/
inductive Cut where
  /-- The lines of a unit that is kept whole. -/
  | whole (unit : Occurrence) (start stop : Nat)
  /-- Lines between the units right inside a unit, or between the outermost units of a file. -/
  | gap (unit : Option Occurrence) (start stop : Nat)

namespace Cut

/-- The unit that the lines belong to. -/
def unit? : Cut → Option Occurrence
  | whole unit _ _ => some unit
  | gap unit _ _ => unit

def start : Cut → Nat
  | whole _ start _ => start
  | gap _ start _ => start

def stop : Cut → Nat
  | whole _ _ stop => stop
  | gap _ _ stop => stop

/-- What the lines between the units right inside a unit belong to. -/
def between : Option Occurrence → Attribution
  | none => .topLevel
  | some unit => .inside unit.tree.unit

/-- What the lines belong to. -/
def attribution : Cut → Attribution
  | whole unit _ _ => .whole unit.tree.unit (ownerAmong unit.around)
  | gap unit _ _ => between unit

variable (limits : ChunkLimits) (index : LineIndex)

/-- The pieces of a cut. -/
def pieces : Cut → List Piece
  | whole unit start stop =>
    [⟨start, stop, attribution (.whole unit start stop),
      decide (limits.maxTokens < index.tokens start stop)⟩]
  | gap unit start stop => Piece.gap limits index (between unit) start stop

mutual

/-- The cuts of the lines `cursor` to `stop` right inside `unit`, in which the units `trees` lie. -/
def ofRegion (unit : Option Occurrence) (cursor stop : Nat) : List UnitTree → List Cut
  | [] => if cursor ≤ stop then [gap unit cursor stop] else []
  | tree :: trees =>
    let first := max tree.unit.startLine cursor
    let last := min tree.unit.endLine stop
    if last < first then ofRegion unit cursor stop trees
    else
      (if cursor < first then [gap unit cursor (first - 1)] else []) ++
        ofUnit (unitsAround unit) first last tree ++ ofRegion unit (last + 1) stop trees

/-- The cuts of a unit on the lines `start` to `stop`. -/
def ofUnit (around : List CodeUnit) (start stop : Nat) : UnitTree → List Cut
  | .node unit nested =>
    if limits.maxTokens < index.tokens start stop ∧ nested ≠ [] then
      ofRegion (some ⟨around, .node unit nested⟩) start stop nested
    else [whole ⟨around, .node unit nested⟩ start stop]

end

/-- The cuts of a file with the units `forest`. -/
def ofForest (forest : List UnitTree) : List Cut :=
  ofRegion limits index none 1 index.size forest

/-! ### Pieces of cuts -/

mutual

theorem flatMap_pieces_ofRegion (unit : Option Occurrence) (cursor stop : Nat) :
    ∀ trees : List UnitTree,
      (ofRegion limits index unit cursor stop trees).flatMap (pieces limits index)
        = Piece.region limits index (between unit) (ownerAmong (unitsAround unit)) cursor stop trees
  | [] => by
    rw [ofRegion, Piece.region]
    split
    · exact List.append_nil _
    · rfl
  | tree :: trees => by
    rw [ofRegion, Piece.region]
    split
    · exact flatMap_pieces_ofRegion unit cursor stop trees
    · rw [List.flatMap_append, List.flatMap_append, flatMap_pieces_ofRegion unit _ stop trees,
        flatMap_pieces_ofUnit (unitsAround unit) _ _ tree]
      congr 2
      split
      · exact List.append_nil _
      · rfl

theorem flatMap_pieces_ofUnit (around : List CodeUnit) (start stop : Nat) :
    ∀ tree : UnitTree,
      (ofUnit limits index around start stop tree).flatMap (pieces limits index)
        = Piece.unit limits index (ownerAmong around) start stop tree
  | .node unit nested => by
    have hinside := flatMap_pieces_ofRegion (some ⟨around, .node unit nested⟩) start stop nested
    rw [unitsAround, UnitTree.unit, ownerAmong_concat] at hinside
    rw [ofUnit, Piece.unit]
    by_cases hfits : index.tokens start stop ≤ limits.maxTokens
    · rw [if_neg fun h => Nat.not_lt.mpr hfits h.1, if_pos hfits]
      simp [pieces, attribution, UnitTree.unit, hfits]
    · rw [if_neg hfits]
      cases nested with
      | nil =>
        rw [if_neg fun h => h.2 rfl]
        simpa [pieces, attribution, UnitTree.unit] using hfits
      | cons inner nested =>
        rw [if_pos ⟨Nat.not_le.mp hfits, List.cons_ne_nil _ _⟩]
        exact hinside

end

/-- The pieces of a walk are those of its cuts. -/
theorem flatMap_pieces_ofForest (forest : List UnitTree) :
    (ofForest limits index forest).flatMap (pieces limits index)
      = Piece.semantic limits index forest :=
  flatMap_pieces_ofRegion limits index none 1 index.size forest

variable {limits index} in
/-- All pieces of a cut belong to what the cut belongs to. -/
theorem attribution_of_mem_pieces {cut : Cut} {p : Piece} (h : p ∈ cut.pieces limits index) :
    p.attribution = cut.attribution := by
  cases cut with
  | whole unit start stop => rw [List.mem_singleton.mp h]
  | gap unit start stop =>
    rw [pieces, Piece.gap] at h
    split at h
    · cases h
    · obtain ⟨span, -, rfl⟩ := List.mem_map.mp h
      rfl

/-! ### Where cuts lie -/

/-- The cut has a line, and all its lines are among `first` to `last`. -/
structure LiesIn (first last : Nat) (cut : Cut) : Prop where
  first_le : first ≤ cut.start
  le : cut.start ≤ cut.stop
  le_last : cut.stop ≤ last

theorem LiesIn.mono {first last first' last' : Nat} {cut : Cut} (h : LiesIn first last cut)
    (hfirst : first' ≤ first) (hlast : last ≤ last') : LiesIn first' last' cut :=
  ⟨Nat.le_trans hfirst h.first_le, h.le, Nat.le_trans h.le_last hlast⟩

mutual

theorem bounds_ofRegion (unit : Option Occurrence) (cursor stop : Nat) :
    ∀ trees : List UnitTree, ∀ cut ∈ ofRegion limits index unit cursor stop trees,
      LiesIn cursor stop cut
  | [] => by
    intro cut hcut
    rw [ofRegion] at hcut
    split at hcut
    · rename_i hle
      rw [List.mem_singleton.mp hcut]
      exact ⟨Nat.le_refl _, hle, Nat.le_refl _⟩
    · cases hcut
  | tree :: trees => by
    intro cut hcut
    rw [ofRegion] at hcut
    split at hcut
    · exact bounds_ofRegion unit cursor stop trees cut hcut
    · rename_i hlast
      rcases List.mem_append.mp hcut with hcut | hcut
      · rcases List.mem_append.mp hcut with hcut | hcut
        · split at hcut
          · rename_i hcursor
            rw [List.mem_singleton.mp hcut]
            refine ⟨Nat.le_refl _, ?_, ?_⟩
            · show cursor ≤ max tree.unit.startLine cursor - 1
              omega
            · show max tree.unit.startLine cursor - 1 ≤ stop
              omega
          · cases hcut
        · exact (bounds_ofUnit _ _ _ (by omega) tree cut hcut).mono (by omega) (by omega)
      · exact (bounds_ofRegion unit _ stop trees cut hcut).mono (by omega) (Nat.le_refl _)

theorem bounds_ofUnit (around : List CodeUnit) (start stop : Nat) (hle : start ≤ stop) :
    ∀ tree : UnitTree, ∀ cut ∈ ofUnit limits index around start stop tree,
      LiesIn start stop cut
  | .node unit nested => by
    intro cut hcut
    rw [ofUnit] at hcut
    split at hcut
    · exact bounds_ofRegion _ start stop nested cut hcut
    · rw [List.mem_singleton.mp hcut]
      exact ⟨Nat.le_refl _, hle, Nat.le_refl _⟩

end

/-! ### Whose lines are cut -/

/-- The lines are lines of one of `units`, or belong to none. A unit that is kept whole is within
the budget or has no units inside it. -/
def IsOf (units : List Occurrence) : Cut → Prop
  | whole unit start stop => (unit ∈ units ∧
      unit.tree.unit.startLine ≤ start ∧ stop ≤ unit.tree.unit.endLine) ∧
      (limits.maxTokens < index.tokens start stop → unit.tree.nested = [])
  | gap unit start stop => ∀ u ∈ unit, u ∈ units ∧
      u.tree.unit.startLine ≤ start ∧ stop ≤ u.tree.unit.endLine

variable {limits index} in
theorem IsOf.mono {units units' : List Occurrence} {cut : Cut} (h : IsOf limits index units cut)
    (hsub : units ⊆ units') : IsOf limits index units' cut := by
  cases cut with
  | whole unit start stop => exact ⟨⟨hsub h.1.1, h.1.2⟩, h.2⟩
  | gap unit start stop => exact fun u hu => ⟨hsub (h u hu).1, (h u hu).2⟩

variable {limits index} in
theorem IsOf.lies {units : List Occurrence} {cut : Cut} (h : IsOf limits index units cut) :
    ∀ u ∈ cut.unit?, u ∈ units ∧
      u.tree.unit.startLine ≤ cut.start ∧ cut.stop ≤ u.tree.unit.endLine := by
  cases cut with
  | whole unit start stop =>
    intro u hu
    obtain rfl := Option.some.inj hu
    exact h.1
  | gap unit start stop => exact h

mutual

theorem isOf_ofRegion (unit : Option Occurrence) (cursor stop : Nat)
    (hunit : ∀ u ∈ unit, u.tree.unit.startLine ≤ cursor ∧ stop ≤ u.tree.unit.endLine) :
    ∀ trees : List UnitTree, ∀ cut ∈ ofRegion limits index unit cursor stop trees,
      IsOf limits index (unit.toList ++ occurrencesOfList (unitsAround unit) trees) cut
  | [] => by
    intro cut hcut
    rw [ofRegion] at hcut
    split at hcut
    · rw [List.mem_singleton.mp hcut]
      exact fun u hu => ⟨List.mem_append_left _ (Option.mem_toList.mpr hu), hunit u hu⟩
    · cases hcut
  | tree :: trees => by
    intro cut hcut
    have hrest : unit.toList ++ occurrencesOfList (unitsAround unit) trees
        ⊆ unit.toList ++ occurrencesOfList (unitsAround unit) (tree :: trees) := by
      rw [occurrencesOfList]
      exact List.append_subset.mpr ⟨List.subset_append_left _ _,
        fun o ho => List.mem_append_right _ (List.mem_append_right _ ho)⟩
    rw [ofRegion] at hcut
    split at hcut
    · exact (isOf_ofRegion unit cursor stop hunit trees cut hcut).mono hrest
    · rcases List.mem_append.mp hcut with hcut | hcut
      · rcases List.mem_append.mp hcut with hcut | hcut
        · split at hcut
          · rw [List.mem_singleton.mp hcut]
            intro u hu
            obtain ⟨hstart, hstop⟩ := hunit u hu
            exact ⟨List.mem_append_left _ (Option.mem_toList.mpr hu), hstart, by omega⟩
          · cases hcut
        · -- A unit is cut down to the region, which leaves it lines of its own only.
          refine (isOf_ofUnit _ _ _ tree ?_ ?_ cut hcut).mono ?_
          · omega
          · omega
          · intro o ho
            rw [occurrencesOfList]
            exact List.mem_append_right _ (List.mem_append_left _ ho)
      · refine (isOf_ofRegion unit _ stop (fun u hu => ?_) trees cut hcut).mono hrest
        obtain ⟨hstart, hstop⟩ := hunit u hu
        exact ⟨by omega, hstop⟩

theorem isOf_ofUnit (around : List CodeUnit) (start stop : Nat) :
    ∀ tree : UnitTree, tree.unit.startLine ≤ start → stop ≤ tree.unit.endLine →
      ∀ cut ∈ ofUnit limits index around start stop tree,
        IsOf limits index (occurrences around tree) cut
  | .node unit nested, hstart, hstop => by
    intro cut hcut
    rw [ofUnit] at hcut
    rw [occurrences]
    split at hcut
    · refine isOf_ofRegion _ start stop (fun u hu => ?_) nested cut hcut
      obtain rfl := Option.some.inj hu
      exact ⟨hstart, hstop⟩
    · rename_i hkept
      rw [List.mem_singleton.mp hcut]
      exact ⟨⟨List.mem_cons_self, hstart, hstop⟩,
        fun hover => Decidable.byContradiction fun hnested => hkept ⟨hover, hnested⟩⟩

end

/-- The cuts of a file with units are cuts of these units. -/
theorem isOf_ofForest (forest : List UnitTree) :
    ∀ cut ∈ ofForest limits index forest, IsOf limits index (occurrencesOfList [] forest) cut :=
  isOf_ofRegion limits index none 1 index.size nofun forest

end Cut

end CodeIndex
