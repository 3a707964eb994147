import CodeIndex.Proofs.Unit.Nesting
/-!
# The lines above a definition

A unit begins above its definition when comments and attributes are stacked there (`leadingRun`).
Every line that it takes in belongs to one of them (`covered_of_lt`). But such a line may hold other
code as well: a comment behind a statement stands in its last line, and the unit below takes the
line in. `reachesUp_collect` says when a unit takes in no end of other code: when nothing in the run
begins as high up as that code ends. Where the siblings stand in the order of the file, it is enough
that the run does not begin in the last line of what stands before it.
-/

namespace CodeIndex.UnitTree

open CodeIndex.Syntax

variable (t : Tree)

/-- A comment or an attribute that ends right above the line `start`, or further down. -/
def isStacked (start c : Nat) : Bool :=
  t.profile.isLeading (t.kind c) && start ≤ (t.node c).endLine + 1

/-- The part of `ids`, the nearest first, that is stacked on the line `start`, one on the other. -/
def stackedOn (start : Nat) : List Nat → List Nat
  | [] => []
  | c :: rest =>
    if isStacked t start c then c :: stackedOn (min start (t.node c).startLine) rest else []

/-- The comments and attributes stacked on a node, the nearest first. -/
def leadingRun (o : Nat) : List Nat :=
  stackedOn t (t.node o).startLine (siblingsBefore t o)

/-- What ends above a node, and is no comment or attribute, ends above the line `start`. -/
def SwallowsNothing (o start : Nat) : Prop :=
  ∀ s ∈ siblingsBefore t o, t.profile.isLeading (t.kind s) = false →
    (t.node s).endLine < (t.node o).startLine → (t.node s).endLine < start

instance (o start : Nat) : Decidable (SwallowsNothing t o start) :=
  inferInstanceAs (Decidable (∀ s ∈ siblingsBefore t o, _))

/-- The siblings up to a node stand one behind the other in the file. -/
structure AreInOrder (o : Nat) : Prop where
  lines : ∀ s ∈ siblingsBefore t o, (t.node s).startLine ≤ (t.node s).endLine
  ascending : (o :: siblingsBefore t o).Pairwise fun later earlier =>
    (t.node earlier).endLine ≤ (t.node later).startLine

variable {t}

/-! ### The run -/

theorem extendUp_cons (start c : Nat) (rest : List Nat) :
    extendUp t start (c :: rest)
      = if isStacked t start c then extendUp t (min start (t.node c).startLine) rest else start :=
  rfl

/-- Extended upwards, the first line is the highest of the run. -/
theorem le_extendUp_iff {l : Nat} (start : Nat) (ids : List Nat) :
    l ≤ extendUp t start ids ↔
      l ≤ start ∧ ∀ c ∈ stackedOn t start ids, l ≤ (t.node c).startLine := by
  induction ids generalizing start with
  | nil => simp [extendUp, stackedOn]
  | cons c rest ih =>
    rw [extendUp_cons, stackedOn]
    by_cases h : isStacked t start c = true
    · rw [if_pos h, if_pos h, ih, Nat.le_min, List.forall_mem_cons, and_assoc]
    · rw [if_neg h, if_neg h]
      exact ⟨fun hl => ⟨hl, nofun⟩, fun hl => hl.1⟩

/-- Between the first line and the line that the run is stacked on there is no gap in the run. -/
theorem covered_of_lt {l : Nat} (start : Nat) (ids : List Nat) (hle : extendUp t start ids ≤ l)
    (hlt : l < start) :
    ∃ c ∈ stackedOn t start ids, (t.node c).startLine ≤ l ∧ l ≤ (t.node c).endLine := by
  induction ids generalizing start with
  | nil => exact absurd hle (Nat.not_le.mpr hlt)
  | cons c rest ih =>
    rw [extendUp_cons] at hle
    rw [stackedOn]
    by_cases h : isStacked t start c = true
    · rw [if_pos h] at hle ⊢
      have hend : start ≤ (t.node c).endLine + 1 := of_decide_eq_true (Bool.and_eq_true_iff.mp h).2
      rcases Nat.lt_or_ge l (t.node c).startLine with hc | hc
      · obtain ⟨d, hd, hl⟩ := ih _ hle (Nat.lt_min.mpr ⟨hlt, hc⟩)
        exact ⟨d, List.mem_cons_of_mem _ hd, hl⟩
      · exact ⟨c, List.mem_cons_self, hc, Nat.le_of_lt_succ (Nat.lt_of_lt_of_le hlt hend)⟩
    · rw [if_neg h] at hle
      exact absurd hle (Nat.not_le.mpr hlt)

/-- The run ends at what is no comment or attribute, or does not reach down to it. -/
theorem stackedOn_append (start : Nat) (ids : List Nat) :
    ∃ rest, ids = stackedOn t start ids ++ rest ∧
      (∀ c ∈ stackedOn t start ids, t.profile.isLeading (t.kind c) = true) ∧
      ∀ s ∈ rest.head?, t.profile.isLeading (t.kind s) = true →
        (t.node s).endLine + 1 < extendUp t start ids := by
  induction ids generalizing start with
  | nil => exact ⟨[], rfl, nofun, nofun⟩
  | cons c rest ih =>
    rw [extendUp_cons, stackedOn]
    by_cases h : isStacked t start c = true
    · obtain ⟨rest', hids, hleading, hhead⟩ := ih (min start (t.node c).startLine)
      rw [if_pos h, if_pos h]
      refine ⟨rest', congrArg (c :: ·) hids, ?_, hhead⟩
      exact List.forall_mem_cons.mpr ⟨(Bool.and_eq_true_iff.mp h).1, hleading⟩
    · rw [if_neg h, if_neg h]
      refine ⟨c :: rest, rfl, nofun, ?_⟩
      rintro s ⟨⟩ hs
      simpa [isStacked, hs] using h

/-! ### What a unit takes in -/

variable (o : Nat)

theorem swallowsNothing_leadingStart_iff :
    SwallowsNothing t o (leadingStart t o) ↔
      ∀ c ∈ leadingRun t o, ∀ s ∈ siblingsBefore t o, t.profile.isLeading (t.kind s) = false →
        (t.node s).endLine < (t.node o).startLine → (t.node s).endLine < (t.node c).startLine := by
  constructor
  · intro h c hc s hs hother habove
    exact ((le_extendUp_iff _ _).mp (h s hs hother habove)).2 c hc
  · intro h s hs hother habove
    exact (le_extendUp_iff _ _).mpr ⟨habove, fun c hc => h c hc s hs hother habove⟩

variable {o}

/-- In order, what stands before the run ends at its first line or above. -/
theorem AreInOrder.endLine_le {rest : List Nat} (h : AreInOrder t o)
    (hrest : siblingsBefore t o = leadingRun t o ++ rest) {s : Nat} (hs : s ∈ rest) :
    (t.node s).endLine ≤ leadingStart t o := by
  have hascending := h.ascending
  rw [hrest, List.pairwise_cons, List.pairwise_append] at hascending
  obtain ⟨hnode, -, -, hrun⟩ := hascending
  exact (le_extendUp_iff _ _).mpr
    ⟨hnode s (List.mem_append_right _ hs), fun c hc => hrun c hc s hs⟩

/-- In order, it is the sibling right before the run that matters. -/
theorem AreInOrder.swallowsNothing_iff (h : AreInOrder t o) :
    SwallowsNothing t o (leadingStart t o) ↔
      ∀ s ∈ (siblingsBefore t o)[(leadingRun t o).length]?,
        t.profile.isLeading (t.kind s) = false → (t.node s).endLine < (t.node o).startLine →
          (t.node s).endLine ≠ leadingStart t o := by
  obtain ⟨rest, hrest, hleading, hhead⟩ :=
    stackedOn_append (t := t) (t.node o).startLine (siblingsBefore t o)
  have hnext : (siblingsBefore t o)[(leadingRun t o).length]? = rest.head? := by
    rw [congrArg (·[(leadingRun t o).length]?) hrest, leadingRun,
      List.getElem?_append_right (Nat.le_refl _), Nat.sub_self, List.head?_eq_getElem?]
  rw [hnext]
  constructor
  · intro hnothing s hs hother habove
    have hmem : s ∈ siblingsBefore t o := by
      rw [hrest]
      exact List.mem_append_right _ (List.mem_of_mem_head? hs)
    exact Nat.ne_of_lt (hnothing s hmem hother habove)
  · intro hne s hs hother habove
    have hmem : s ∈ rest := by
      rw [hrest] at hs
      refine (List.mem_append.mp hs).resolve_left fun hrun => ?_
      exact Bool.false_ne_true (hother.symm.trans (hleading s hrun))
    refine Nat.lt_of_le_of_ne (h.endLine_le hrest hmem) fun heq => ?_
    obtain ⟨first, rest', rfl⟩ := List.exists_cons_of_ne_nil (List.ne_nil_of_mem hmem)
    -- The sibling right before the run ends in the same line, so it ended the run as other code.
    have hfirst : (t.node first).endLine = leadingStart t o := by
      have hle := h.endLine_le hrest List.mem_cons_self
      rcases List.mem_cons.mp hmem with rfl | hmem
      · exact heq
      · have hascending := (List.pairwise_cons.mp h.ascending).2
        rw [hrest, List.pairwise_append, List.pairwise_cons] at hascending
        have hbelow := hascending.2.1.1 s hmem
        have hlines := h.lines first (by rw [hrest]; simp)
        omega
    cases hkind : t.profile.isLeading (t.kind first) with
    | true =>
      have hgap := hhead first rfl hkind
      exact absurd hfirst (Nat.ne_of_lt (Nat.lt_of_succ_lt hgap))
    | false => exact hne first rfl hkind (by omega) hfirst

/-! ### Collected units -/

variable (t) in
/-- How far a unit reaches up that begins in line `start` and whose definition, with what is wrapped
around it, is the node `o`. -/
structure ReachesUp (o start : Nat) : Prop where
  le : start ≤ (t.node o).startLine
  leading : ∀ c ∈ leadingRun t o,
    c ∈ siblingsBefore t o ∧ t.profile.isLeading (t.kind c) = true ∧ start ≤ (t.node c).startLine
  /-- Every line above the node is a line of a comment or an attribute. -/
  covered : ∀ l, start ≤ l → l < (t.node o).startLine →
    ∃ c ∈ leadingRun t o, (t.node c).startLine ≤ l ∧ l ≤ (t.node c).endLine
  /-- Other code is swallowed exactly where something in the run begins no lower than it ends. -/
  swallowsNothing_iff : SwallowsNothing t o start ↔
    ∀ c ∈ leadingRun t o, ∀ s ∈ siblingsBefore t o, t.profile.isLeading (t.kind s) = false →
      (t.node s).endLine < (t.node o).startLine → (t.node s).endLine < (t.node c).startLine
  /-- In order, it is the sibling right before the run, with the run beginning in its last line. -/
  swallowsNothing_iff_of_areInOrder : AreInOrder t o → (SwallowsNothing t o start ↔
    ∀ s ∈ (siblingsBefore t o)[(leadingRun t o).length]?, t.profile.isLeading (t.kind s) = false →
      (t.node s).endLine < (t.node o).startLine → (t.node s).endLine ≠ start)

theorem reachesUp_leadingStart (o : Nat) : ReachesUp t o (leadingStart t o) where
  le := ((le_extendUp_iff _ _).mp (Nat.le_refl _)).1
  leading := by
    intro c hc
    obtain ⟨rest, hrest, hleading, -⟩ :=
      stackedOn_append (t := t) (t.node o).startLine (siblingsBefore t o)
    refine ⟨?_, hleading c hc, ((le_extendUp_iff _ _).mp (Nat.le_refl _)).2 c hc⟩
    rw [hrest]
    exact List.mem_append_left _ hc
  covered l := covered_of_lt _ _
  swallowsNothing_iff := swallowsNothing_leadingStart_iff o
  swallowsNothing_iff_of_areInOrder h := h.swallowsNothing_iff

/-- Where kinds of nodes do not overlap, a unit begins where the run on its outermost node
begins. -/
theorem reachesUp_of_mem_listing {source : String} {e : Entry}
    (hkinds : t.profile.KindsDisjoint) (he : e ∈ listing (collect t source)) :
    ReachesUp t (outer t e.unit.node) e.unit.startLine := by
  obtain ⟨i, hi⟩ := List.mem_iff_getElem?.mp he
  have hunit := (above_of_collect hkinds hi).1
  rw [congrArg (·.startLine) hunit]
  exact reachesUp_leadingStart (outer t e.unit.node)

/-- A unit takes in the comments and attributes that are stacked on it. It swallows no other code
except with a comment or an attribute that begins where such code has not yet ended. -/
theorem reachesUp_collect (source : String)
    (hprofile : t.profile ∈ Language.builtins.map (·.profile)) :
    ∀ e ∈ listing (collect t source), ReachesUp t (outer t e.unit.node) e.unit.startLine :=
  fun _ he =>
    reachesUp_of_mem_listing (Language.Profile.kindsDisjoint_of_mem_builtins hprofile) he

/-- A comment and a decorator stand on the function, a statement and an empty line above them. -/
theorem reachesUp_collect_decorated :
    let t : Tree :=
      ⟨"python", .python,
        #[⟨"module", none, 0, 50, 1, 6, none, false⟩,
          ⟨"import_statement", none, 0, 9, 1, 1, some 0, false⟩,
          ⟨"comment", none, 11, 19, 3, 3, some 0, false⟩,
          ⟨"decorated_definition", none, 20, 50, 4, 6, some 0, false⟩,
          ⟨"decorator", none, 20, 26, 4, 4, some 3, false⟩,
          ⟨"function_definition", some "definition", 27, 50, 5, 6, some 3, false⟩],
        by decide, _, rfl⟩
    t.profile ∈ Language.builtins.map (·.profile) ∧
      (listing (collect t "")).map (fun e => (e.unit.node, e.unit.startLine)) = [(5, 3)] ∧
      ∀ e ∈ listing (collect t ""), ReachesUp t (outer t e.unit.node) e.unit.startLine := by
  intro t
  have hprofile : t.profile ∈ Language.builtins.map (·.profile) := by decide
  exact ⟨hprofile, by decide +kernel, reachesUp_collect "" hprofile⟩

/-- The comment of `x = 1  # note` stands on the function in the next line, so the function begins
with the statement, which is the last thing above it. -/
theorem swallows_statement :
    let t : Tree :=
      ⟨"python", .python,
        #[⟨"module", none, 0, 30, 1, 3, none, false⟩,
          ⟨"expression_statement", none, 0, 5, 1, 1, some 0, false⟩,
          ⟨"comment", none, 7, 13, 1, 1, some 0, false⟩,
          ⟨"function_definition", none, 14, 29, 2, 3, some 0, false⟩,
          ⟨"identifier", some "name", 18, 19, 2, 2, some 3, false⟩], by decide, _, rfl⟩
    let source := "x = 1  # note\ndef f():\n  pass\n"
    (listing (collect t source)).map (·.unit) = [⟨3, .function, some "f", 1, 3⟩] ∧
      outer t 3 = 3 ∧ (t.node 3).startLine = 2 ∧ ¬ SwallowsNothing t 3 1 := by
  intro t source
  exact ⟨by decide +kernel, by decide +kernel, by decide +kernel, by decide +kernel⟩

end CodeIndex.UnitTree
