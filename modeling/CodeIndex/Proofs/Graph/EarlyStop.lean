import CodeIndex.Proofs.Graph.Extraction
import CodeIndex.Proofs.Text.Octets
/-!
# Walks that stop early

A walk stops at the first call whose callee is no part of the source (`IsStray`), and at nothing
else: a name or an import that cannot be read is passed over. What was found until then is not lost,
and nothing that stands behind it counts. `extract_stops_early`: the relationships are those of the
nodes in front of the call, as if the file had no others, and the fault tells of its callee.

That there is a fault just where a call is stray (`isSome_fault_iff`), and what is extracted in
front of it (`extract_of_stray`), takes no more of a profile than that kinds of nodes do not
overlap.
-/

namespace CodeIndex.Graph

open CodeIndex.Syntax

/-! ### Callees outside the source -/

/-- The octets of a node are a part of the source: their range is not reversed, and it begins and
ends inside the source, between two characters. -/
structure LiesIn (source : String) (node : Syntax.Node) : Prop where
  ordered : node.startByte ≤ node.endByte
  start : Text.IsBoundary source node.startByte
  stop : Text.IsBoundary source node.endByte

theorem liesIn_iff {source : String} {node : Syntax.Node} :
    LiesIn source node ↔ node.startByte ≤ node.endByte ∧ Text.IsBoundary source node.startByte ∧
      Text.IsBoundary source node.endByte :=
  ⟨fun h => ⟨h.ordered, h.start, h.stop⟩, fun h => ⟨h.1, h.2.1, h.2.2⟩⟩

instance (source : String) (node : Syntax.Node) : Decidable (LiesIn source node) :=
  decidable_of_iff _ liesIn_iff.symm

/-- A call whose callee is no part of the source. -/
def IsStray (t : Tree) (source : String) (id : Nat) : Prop :=
  ∃ callee, calleeNode? t id = some callee ∧ ¬ LiesIn source (t.node callee)

section Nodes

variable {t : Tree} (source : String)

/-- A node of the tree has a text where its octets are a part of the source. -/
theorem isSome_text?_iff {id : Nat} (hid : id < t.nodes.size) :
    (t.text? id source).isSome ↔ LiesIn source (t.node id) := by
  have hnode : t.node? id = some (t.node id) := by
    unfold Syntax.Tree.node? Syntax.Tree.node
    rw [Array.getD_eq_getD_getElem?, Array.getElem?_eq_getElem hid, Option.getD_some]
  rw [Tree.text?, hnode, Option.bind_some, Text.isSome_slice?_iff, liesIn_iff]

theorem lt_size_of_calleeNode? {id callee : Nat} (h : calleeNode? t id = some callee) :
    callee < t.nodes.size := by
  obtain ⟨field, -, hchild⟩ := Option.bind_eq_some_iff.mp h
  exact Tree.lt_size_of_mem_children (Tree.mem_children_of_childByField? hchild)

/-! ### Where the walk stops -/

variable (hkinds : t.profile.KindsDisjoint)
include hkinds

theorem findingsAt_of_not_isStray {id : Nat} (h : ¬ IsStray t source id) :
    findingsAt t source ⟨id, scopesAt t source id⟩ = .ok (findingsOf t source id) := by
  apply findingsAt_scopesAt source hkinds
  intro callee hcallee
  rw [isSome_text?_iff source (lt_size_of_calleeNode? hcallee)]
  by_contra hout
  exact h ⟨callee, hcallee, hout⟩

/-- Only a call has a callee, so at a stray one the walk gets to its text. -/
theorem findingsAt_of_stray {id callee : Nat} (hcallee : calleeNode? t id = some callee)
    (hout : ¬ LiesIn source (t.node callee)) (scopes : List Scope) :
    findingsAt t source ⟨id, scopes⟩
      = .error (.outsideSource (t.kind callee) (t.node callee).startLine) := by
  have htext : t.text? callee source = none := by
    rw [← Option.not_isSome_iff_eq_none, isSome_text?_iff source (lt_size_of_calleeNode? hcallee)]
    exact hout
  obtain ⟨field, hfield, -⟩ := Option.bind_eq_some_iff.mp hcallee
  -- The kinds that the walk asks for first have no callee.
  have himport : ¬ t.profile.isImport (t.kind id) = true := fun h => by
    rw [(hkinds.of_isImport h).2.2.2] at hfield
    cases hfield
  have hdefinition : ¬ (isTypeLike t id || t.profile.isFunction (t.kind id)) = true := fun h => by
    rcases Bool.or_eq_true _ _ ▸ h with htype | hfunction
    · rw [hkinds.calleeField?_of_isType htype] at hfield
      cases hfield
    · rw [(hkinds.of_isFunction hfunction).2.2] at hfield
      cases hfield
  simp only [findingsAt, if_neg himport, if_neg hdefinition, hcallee, htext]

/-! ### What is extracted -/

variable (resource : Resource)

/-- Up to a stray call, everything that the nodes in front of it give is extracted. -/
theorem extract_of_stray {walked rest : List Nat} {id callee : Nat}
    (hnodes : visibleNodes t = walked ++ id :: rest) (hwalked : ∀ w ∈ walked, ¬ IsStray t source w)
    (hcallee : calleeNode? t id = some callee) (hout : ¬ LiesIn source (t.node callee)) :
    extract resource (some t) source
      = ⟨meaningAmong resource t source walked,
          some (.outsideSource (t.kind callee) (t.node callee).startLine)⟩ := by
  have hvisits : visits t source
      = (walked.map fun w => ⟨w, scopesAt t source w⟩) ++
          ⟨id, scopesAt t source id⟩ :: rest.map fun w => ⟨w, scopesAt t source w⟩ := by
    rw [visits_eq, hnodes, List.map_append, List.map_cons]
  have hok : ∀ visit ∈ walked.map fun w => (⟨w, scopesAt t source w⟩ : Visit),
      findingsAt t source visit = .ok (findingsOf t source visit.node) := by
    intro visit hvisit
    obtain ⟨w, hw, rfl⟩ := List.mem_map.mp hvisit
    exact findingsAt_of_not_isStray source hkinds (hwalked w hw)
  have hfindings := findings_append _
    (⟨id, scopesAt t source id⟩ :: rest.map fun w => ⟨w, scopesAt t source w⟩) hok
  rw [← hvisits, findings, findingsAt_of_stray source hkinds hcallee hout, List.flatMap_map,
    List.append_nil] at hfindings
  rw [extract, hfindings]
  simp only
  rw [triplesOf_findingsOf_among resource source hkinds]

theorem extract_of_no_stray (h : ∀ id ∈ visibleNodes t, ¬ IsStray t source id) :
    (extract resource (some t) source).fault = none := by
  have hok : ∀ visit ∈ visits t source,
      findingsAt t source visit = .ok (findingsOf t source visit.node) := by
    intro visit hvisit
    rw [visits_eq] at hvisit
    obtain ⟨id, hid, rfl⟩ := List.mem_map.mp hvisit
    exact findingsAt_of_not_isStray source hkinds (h id hid)
  rw [extract, findings_eq _ hok]

/-- Nothing but a stray call stops the walk. -/
theorem isSome_fault_iff :
    (extract resource (some t) source).fault.isSome ↔
      ∃ id ∈ visibleNodes t, IsStray t source id := by
  constructor
  · intro hfault
    by_contra hnone
    have hno := extract_of_no_stray source hkinds resource fun id hid hstray =>
      hnone ⟨id, hid, hstray⟩
    rw [hno] at hfault
    cases hfault
  · rintro ⟨id, hid, hstray⟩
    -- Some stray call is the first one, and it is there that the walk stops.
    classical
    have hsome : ((visibleNodes t).find? fun w => decide (IsStray t source w)).isSome := by
      rw [List.find?_isSome]
      exact ⟨id, hid, decide_eq_true hstray⟩
    obtain ⟨first, hfirst⟩ := Option.isSome_iff_exists.mp hsome
    obtain ⟨hstray, walked, rest, hnodes, hwalked⟩ := List.find?_eq_some_iff_append.mp hfirst
    obtain ⟨callee, hcallee, hout⟩ := of_decide_eq_true hstray
    rw [extract_of_stray source hkinds resource hnodes
      (fun w hw => by simpa using hwalked w hw) hcallee hout]
    rfl

omit hkinds

/-- What is extracted stands in the order of lines, whatever the kinds of nodes mean. -/
theorem pairwise_line_extract :
    (extract resource (some t) source).triples.Pairwise (fun a b => a.line ≤ b.line) := by
  apply List.Pairwise.sublist (distinctOn_sublist Triple.id [] _)
  exact pairwise_mergeSort_key Triple.line _

/-- **Extraction stops early.** There is a fault just when the callee of some call outside imports
is no part of the source. The fault tells of the first such callee in pre-order, and the
relationships are what the nodes in front of that call mean by themselves. They stand in the order
of lines and have different identities. -/
theorem extract_stops_early (hprofile : t.profile ∈ Language.builtins.map (·.profile)) :
    let extraction := extract resource (some t) source
    (extraction.fault.isSome ↔ ∃ id ∈ visibleNodes t, IsStray t source id) ∧
    (∀ walked id rest callee, visibleNodes t = walked ++ id :: rest →
      (∀ w ∈ walked, ¬ IsStray t source w) → calleeNode? t id = some callee →
      ¬ LiesIn source (t.node callee) →
      extraction.triples = meaningAmong resource t source walked ∧
      extraction.fault
        = some (.outsideSource (t.kind callee) (t.node callee).startLine)) ∧
    extraction.triples.Pairwise (fun a b => a.line ≤ b.line) ∧
    (extraction.triples.map Triple.id).Nodup := by
  have hkinds := Language.Profile.kindsDisjoint_of_mem_builtins hprofile
  refine ⟨isSome_fault_iff source hkinds resource, ?_, pairwise_line_extract source resource,
    (nodup_distinctOn Triple.id [] _).1⟩
  intro walked id rest callee hnodes hwalked hcallee hout
  rw [extract_of_stray source hkinds resource hnodes hwalked hcallee hout]
  exact ⟨rfl, rfl⟩

end Nodes

/-- Of two calls the second has a reversed callee: the definition behind it does not count, so the
first call stays unresolved. -/
theorem extract_stops_early_reversed :
    let t : Tree :=
      ⟨"python", .python,
        #[⟨"module", none, 0, 20, 1, 3, none, false⟩,
          ⟨"call", none, 0, 3, 1, 1, some 0, false⟩,
          ⟨"identifier", some "function", 0, 1, 1, 1, some 1, false⟩,
          ⟨"call", none, 4, 7, 2, 2, some 0, false⟩,
          ⟨"identifier", some "function", 5, 4, 2, 2, some 3, false⟩,
          ⟨"function_definition", none, 8, 20, 3, 3, some 0, false⟩,
          ⟨"identifier", some "name", 12, 13, 3, 3, some 5, false⟩], by decide, _, rfl⟩
    let source := "f()\ng()\ndef f(): pass"
    let file := Resource.ofPath "/r" "a.py" .practice "python" .epoch
    t.profile ∈ Language.builtins.map (·.profile) ∧
    (extract file (some t) source).fault = some (.outsideSource "identifier" 2) ∧
    (extract file (some t) source).triples = meaningAmong file t source [0, 1, 2] ∧
    (statementsAmong file t source [0, 1, 2]).map (·.confidence)
      = [Score.unresolved.confidence] := by
  intro t source file
  have hprofile : t.profile ∈ Language.builtins.map (·.profile) := by decide
  have hnodes : visibleNodes t = [0, 1, 2] ++ 3 :: [4, 5, 6] := by decide +kernel
  have hwalked : ∀ w ∈ [0, 1, 2], ¬ IsStray t source w := by
    have hlies : ∀ w ∈ [0, 1, 2], ∀ callee ∈ calleeNode? t w, LiesIn source (t.node callee) := by
      decide +kernel
    rintro w hw ⟨callee, hcallee, hout⟩
    exact hout (hlies w hw callee hcallee)
  have hstop := (extract_stops_early source file hprofile).2.1 _ 3 _ 4 hnodes hwalked
    (by decide +kernel) (by decide +kernel)
  exact ⟨hprofile, hstop.2, hstop.1, by decide +kernel⟩

end CodeIndex.Graph
