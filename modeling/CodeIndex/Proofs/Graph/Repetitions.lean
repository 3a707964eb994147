import CodeIndex.Proofs.Graph.Resolution
import CodeIndex.Proofs.Graph.Triples
import CodeIndex.Proofs.Identity
import CodeIndex.Proofs.Number.Rounding
/-!
# Repeated relationships

Of triples with one identity an extraction keeps the first. The identity leaves out how sure a
triple is, so this loses something where two calls differ in nothing else. `repetitions_exact` says
when they do: just when one of them is a method of the type around it (`SymbolTable.IsSelfCall`) and
the other, written alike on the same line, stands outside that type but comes to the same target.
Without such a pair the extraction keeps every triple, whatever the order of the walk.

On one line both can stand (`not_only_repetitions`): a call in the body of a class and the same call
behind the class.
-/

namespace CodeIndex.Graph

open CodeIndex.Syntax

/-! ### Scores -/

/-- Of at most eight tenths, shared or not, the confidence is not that of a method of the type
around the call. -/
theorem Score.confidence_ne_selfMethod {s : Score} (htenths : s.tenths ≤ 8) (hshare : 0 < s.share) :
    s.confidence ≠ selfMethod.confidence := by
  -- Sharing raises a number by its last place at most, and there is more room than that.
  have htable : ∀ tenths < 9, (Number.Binary32.ofRatio tenths 10).units
      + 2 ^ Number.Binary32.excessBits (Number.Binary32.ofRatio tenths 10).units
        < selfMethod.confidence.units := by decide +kernel
  have hfifth : (Number.Binary32.ofRatio 2 10).units < selfMethod.confidence.units := by
    decide +kernel
  have hquotient := Nat.lt_of_le_of_lt
    (Number.Binary32.div_ofNat_le (Number.Binary32.ofRatio s.tenths 10) hshare)
    (htable s.tenths (Nat.lt_succ_of_le htenths))
  intro heq
  have hunits := congrArg Number.Binary32.units heq
  rw [confidence, Number.Binary32.max] at hunits
  split at hunits <;> omega

/-! ### Calls of the type around them -/

namespace SymbolTable

variable {table : SymbolTable} {profile : Language.Profile} {callee : String}
  {enclosing enclosing' : Option String}

/-- The call is a method of the type around it: its receiver stands for that type, which declares
the member exactly once. -/
def IsSelfCall (table : SymbolTable) (profile : Language.Profile) (callee : String)
    (enclosing : Option String) : Prop :=
  ∃ receiver member owner, splitCallee? callee = some (receiver, member) ∧
    table.symbols.IsSelfCall profile enclosing receiver member owner

theorem not_isSelfCall_of_split {receiver member : String}
    (hsplit : splitCallee? callee = some (receiver, member))
    (h : ¬ table.IsSelfCall profile callee enclosing) (owner : String) :
    ¬ table.symbols.IsSelfCall profile enclosing receiver member owner :=
  fun hself => h ⟨receiver, member, owner, hsplit, hself⟩

theorem score_of_isSelfCall (h : table.IsSelfCall profile callee enclosing) :
    (table.resolve profile callee enclosing).score = .selfMethod := by
  obtain ⟨receiver, member, owner, hsplit, hself⟩ := h
  rw [resolve_selfCall hsplit hself]

/-- For any other call it does not matter what stands around it. -/
theorem resolve_eq_of_not_isSelfCall (h : ¬ table.IsSelfCall profile callee enclosing)
    (h' : ¬ table.IsSelfCall profile callee enclosing') :
    table.resolve profile callee enclosing = table.resolve profile callee enclosing' := by
  cases hsplit : splitCallee? callee with
  | none => rw [resolve_plain hsplit, resolve_plain hsplit]
  | some parts =>
    obtain ⟨receiver, member⟩ := parts
    rw [resolve_receiver hsplit (not_isSelfCall_of_split hsplit h),
      resolve_receiver hsplit (not_isSelfCall_of_split hsplit h')]

/-- Through its receiver a member is never as sure as a method of the type around the call. -/
theorem score_resolveReceiver (table : SymbolTable) (callee receiver member : String) :
    (table.resolveReceiver callee receiver member).score.tenths ≤ 8 ∧
      0 < (table.resolveReceiver callee receiver member).score.share := by
  unfold resolveReceiver resolveUnknownReceiver
  dsimp only
  cases table.bindingsOf (receiverRoot receiver) with
  | nil =>
    dsimp only
    split
    · simp [Score.uniqueMember]
    · simp [Score.dynamic]
  | cons only rest =>
    cases rest with
    | nil => simp [Score.importedReceiver]
    | cons second rest => exact ⟨Nat.le_refl 8, Nat.succ_pos _⟩

/-- A call on the type around it can be told from any other by how sure it is. -/
theorem confidence_ne_of_isSelfCall (h : table.IsSelfCall profile callee enclosing)
    (h' : ¬ table.IsSelfCall profile callee enclosing') :
    (table.resolve profile callee enclosing').score.confidence
      ≠ (table.resolve profile callee enclosing).score.confidence := by
  rw [score_of_isSelfCall h]
  obtain ⟨receiver, member, owner, hsplit, -⟩ := h
  rw [resolve_receiver hsplit (not_isSelfCall_of_split hsplit h')]
  have hscore := table.score_resolveReceiver callee receiver member
  exact Score.confidence_ne_selfMethod hscore.1 hscore.2

theorem confidence_resolve_eq_iff :
    (table.resolve profile callee enclosing).score.confidence
        = (table.resolve profile callee enclosing').score.confidence ↔
      (table.IsSelfCall profile callee enclosing ↔ table.IsSelfCall profile callee enclosing') := by
  by_cases h : table.IsSelfCall profile callee enclosing
  · by_cases h' : table.IsSelfCall profile callee enclosing'
    · rw [score_of_isSelfCall h, score_of_isSelfCall h']
      exact iff_of_true rfl (iff_of_true h h')
    · have hne := confidence_ne_of_isSelfCall h h'
      exact iff_of_false hne.symm fun hiff => h' (hiff.mp h)
  · by_cases h' : table.IsSelfCall profile callee enclosing'
    · have hne := confidence_ne_of_isSelfCall h' h
      exact iff_of_false hne fun hiff => h (hiff.mpr h')
    · rw [resolve_eq_of_not_isSelfCall h h']
      exact iff_of_true rfl (iff_of_false h h')

end SymbolTable

/-! ### The triple of a finding -/

/-- The finding is a call of a method of the type around it. -/
def Finding.IsSelfCall (t : Tree) (table : SymbolTable) : Finding → Prop
  | .called callee _ scopes => table.IsSelfCall t.profile callee
      ((scopes.find? (!·.isFunction)).map (·.qualified))
  | _ => False

/-- The triple that a finding gives, in view of some symbols. -/
def tripleOf? (t : Tree) (resource : Resource) (table : SymbolTable) (f : Finding) :
    Option Triple :=
  (declarationTriple? resource f).or (callTriple? t resource table f)

/-- The triples of some findings with all repetitions. -/
def allTriplesOf (t : Tree) (resource : Resource) (found : List Finding) : List Triple :=
  found.filterMap (declarationTriple? resource) ++
    found.filterMap (callTriple? t resource (symbolsOf found))

/-- The triples agree in everything but how sure they are. -/
def SameButConfidence (e e' : Triple) : Prop :=
  { e with confidence := e'.confidence } = e'

variable {t : Tree} {resource : Resource} {table : SymbolTable} {found : List Finding}

/-- A finding is a declaration or a call, and not both. -/
theorem tripleOf?_eq_some {f : Finding} {e : Triple} :
    tripleOf? t resource table f = some e ↔
      declarationTriple? resource f = some e ∨ callTriple? t resource table f = some e := by
  unfold tripleOf?
  cases f with
  | imported i => simp [callTriple?]
  | defined name qualified owner line => simp [callTriple?]
  | called callee line scopes => simp [declarationTriple?]

theorem mem_allTriplesOf {e : Triple} :
    e ∈ allTriplesOf t resource found ↔
      ∃ f ∈ found, tripleOf? t resource (symbolsOf found) f = some e := by
  unfold allTriplesOf
  rw [List.mem_append, List.mem_filterMap, List.mem_filterMap, ← exists_or]
  apply exists_congr
  intro f
  rw [tripleOf?_eq_some, and_or_left]

theorem triplesOf_eq (t : Tree) (resource : Resource) (found : List Finding) :
    triplesOf t resource found
      = distinctOn Triple.id [] ((allTriplesOf t resource found).mergeSort
          fun a b => a.line ≤ b.line) :=
  rfl

/-- What a finding gives is a triple of the file. Unless it is a call, it is sure. -/
theorem cases_of_tripleOf? {f : Finding} {e : Triple}
    (he : tripleOf? t resource table f = some e) :
    (e.predicate ≠ .calls ∧ ¬ f.IsSelfCall t table ∧
        e = tripleOf resource e.subject e.predicate e.object e.targetSymbol e.line .exact) ∨
      ∃ enclosing, (f.IsSelfCall t table ↔ table.IsSelfCall t.profile e.object enclosing) ∧
        e = tripleOf resource e.subject .calls e.object e.targetSymbol e.line
          (table.resolve t.profile e.object enclosing).score := by
  cases f with
  | imported i =>
    obtain rfl := Option.some.inj he
    exact Or.inl ⟨by simp [tripleOf], id, rfl⟩
  | defined name qualified owner line =>
    cases line with
    | none => cases he
    | some line =>
      obtain rfl := Option.some.inj he
      exact Or.inl ⟨by simp [tripleOf], id, rfl⟩
  | called callee line scopes =>
    obtain rfl := Option.some.inj he
    exact Or.inr ⟨_, Iff.rfl, rfl⟩

/-- Triples of one file that agree in the fields of the identity agree in all others but the
confidence, and in that just when both are calls on the type around them or neither is. -/
theorem eq_iff_of_fields {f f' : Finding} {e e' : Triple}
    (he : tripleOf? t resource table f = some e) (he' : tripleOf? t resource table f' = some e')
    (hsubject : e.subject = e'.subject) (hpredicate : e.predicate = e'.predicate)
    (hobject : e.object = e'.object) (htarget : e.targetSymbol = e'.targetSymbol)
    (hline : e.line = e'.line) :
    SameButConfidence e e' ∧ (e = e' ↔ (f.IsSelfCall t table ↔ f'.IsSelfCall t table)) := by
  -- The predicates agree, so both are calls or neither is.
  rcases cases_of_tripleOf? he with ⟨hcalls, hself, heq⟩ | ⟨enclosing, hself, heq⟩
  · rcases cases_of_tripleOf? he' with ⟨-, hself', heq'⟩ | ⟨enclosing', -, heq'⟩
    · rw [hsubject, hpredicate, hobject, htarget, hline, ← heq'] at heq
      exact ⟨heq ▸ rfl, iff_of_true heq (iff_of_false hself hself')⟩
    · rw [heq'] at hpredicate
      exact absurd hpredicate hcalls
  · rcases cases_of_tripleOf? he' with ⟨hcalls', -, -⟩ | ⟨enclosing', hself', heq'⟩
    · rw [← hpredicate, heq] at hcalls'
      exact absurd rfl hcalls'
    · rw [hself, hself', ← hobject, ← SymbolTable.confidence_resolve_eq_iff]
      rw [hsubject, htarget, hline] at heq
      rw [← hobject] at heq'
      constructor
      · show { e with confidence := e'.confidence } = e'
        rw [heq, heq']
        rfl
      · constructor
        · intro h
          have hconfidence := congrArg Triple.confidence h
          rw [heq, heq'] at hconfidence
          exact hconfidence
        · intro h
          rw [heq, heq', tripleOf, tripleOf, h]

/-! ### The order of the findings -/

/-- In whatever order they are found, findings declare the same symbols. -/
theorem symbols_symbolsOf_perm {found' : List Finding} (h : found'.Perm found) :
    (symbolsOf found').symbols = (symbolsOf found).symbols := by
  have hreverse : ∀ {α : Type} (g : Finding → Option α),
      (found'.filterMap g).reverse.Perm (found.filterMap g).reverse := fun g =>
    (List.reverse_perm _).trans ((h.filterMap g).trans (List.reverse_perm _).symm)
  have himports := h.filterMap Finding.import?
  rw [symbolsOf_eq, symbolsOf_eq, SymbolTable.symbols, SymbolTable.symbols, Symbols.mk.injEq]
  refine ⟨?_, ?_, ?_, ?_⟩
  · exact List.toFinset_eq_of_perm _ _ (hreverse _)
  · exact List.toFinset_eq_of_perm _ _ ((hreverse _).flatMap_right _)
  · exact Multiset.coe_eq_coe.mpr (hreverse _)
  · exact himports.countP_eq _

theorem tripleOf?_congr {table' : SymbolTable} (h : table'.symbols = table.symbols) (f : Finding) :
    tripleOf? t resource table' f = tripleOf? t resource table f := by
  cases f with
  | imported i => rfl
  | defined name qualified owner line => rfl
  | called callee line scopes =>
    simp only [tripleOf?, callTriple?, SymbolTable.resolve_congr h]

theorem mem_allTriplesOf_perm {found' : List Finding} (h : found'.Perm found) {e : Triple} :
    e ∈ allTriplesOf t resource found' ↔ e ∈ allTriplesOf t resource found := by
  rw [mem_allTriplesOf, mem_allTriplesOf]
  apply exists_congr
  intro f
  rw [h.mem_iff, tripleOf?_congr (symbols_symbolsOf_perm h)]

/-! ### What is kept -/

theorem mem_allTriplesOf_of_mem_triplesOf {e : Triple} (h : e ∈ triplesOf t resource found) :
    e ∈ allTriplesOf t resource found := by
  rw [triplesOf_eq] at h
  exact List.mem_mergeSort.mp (distinctOn_subset _ _ _ h)

theorem exists_mem_triplesOf {e : Triple} (h : e ∈ allTriplesOf t resource found) :
    ∃ e' ∈ triplesOf t resource found, e'.id = e.id := by
  rw [triplesOf_eq]
  obtain ⟨e', he', hid, -⟩ := exists_mem_distinctOn Triple.id
    (pairwise_mergeSort_key Triple.line _) (List.mem_mergeSort.mpr h)
    (List.not_mem_nil (a := e.id))
  exact ⟨e', he', hid⟩

/-- Of each identity one triple is kept. -/
theorem eq_of_mem_triplesOf {e e' : Triple} (he : e ∈ triplesOf t resource found)
    (he' : e' ∈ triplesOf t resource found) (hid : e.id = e'.id) : e = e' := by
  rw [triplesOf_eq] at he he'
  exact List.inj_on_of_nodup_map (nodup_distinctOn Triple.id [] _).1 he he' hid

/-- The identities of these triples tell them apart, as far as identities go: no text contains a
zero, lines fit in 64 bits, and the hash confuses no two of the keys. -/
structure AreIdentified (all : List Triple) : Prop where
  plain : ∀ e ∈ all, e.IsPlain
  lines : ∀ e ∈ all, e.line < Number.count64
  free : Identity.IsCollisionFree (all.map Triple.key)

/-- Of findings whose triples have one identity, all are calls on the type around them or none. -/
def AreUniform (t : Tree) (resource : Resource) (found : List Finding) : Prop :=
  ∀ f ∈ found, ∀ f' ∈ found, ∀ e e', tripleOf? t resource (symbolsOf found) f = some e →
    tripleOf? t resource (symbolsOf found) f' = some e' → e.id = e'.id →
    (f.IsSelfCall t (symbolsOf found) ↔ f'.IsSelfCall t (symbolsOf found))

section Kept

variable (hidentified : AreIdentified (allTriplesOf t resource found))
include hidentified

theorem eq_iff_of_id {f f' : Finding} {e e' : Triple} (hf : f ∈ found) (hf' : f' ∈ found)
    (he : tripleOf? t resource (symbolsOf found) f = some e)
    (he' : tripleOf? t resource (symbolsOf found) f' = some e') (hid : e.id = e'.id) :
    SameButConfidence e e' ∧
      (e = e' ↔ (f.IsSelfCall t (symbolsOf found) ↔ f'.IsSelfCall t (symbolsOf found))) := by
  have hmem := mem_allTriplesOf.mpr ⟨f, hf, he⟩
  have hmem' := mem_allTriplesOf.mpr ⟨f', hf', he'⟩
  have hkey := hidentified.free _ (List.mem_map_of_mem hmem) _ (List.mem_map_of_mem hmem') hid
  obtain ⟨-, hsubject, hpredicate, hobject, htarget, hline⟩ := Triple.key_inj
    (hidentified.plain e hmem) (hidentified.lines e hmem) (hidentified.lines e' hmem') hkey
  exact eq_iff_of_fields he he' hsubject hpredicate hobject htarget hline

/-- In any order of the findings, something is kept for every triple that says the same. -/
theorem exists_sameButConfidence {found' : List Finding} (hperm : found'.Perm found) {e : Triple}
    (he : e ∈ allTriplesOf t resource found) :
    ∃ e' ∈ triplesOf t resource found', SameButConfidence e e' := by
  obtain ⟨e', he', hid⟩ := exists_mem_triplesOf ((mem_allTriplesOf_perm hperm).mpr he)
  have hmem' := (mem_allTriplesOf_perm hperm).mp (mem_allTriplesOf_of_mem_triplesOf he')
  -- What is kept with the same identity says the same.
  obtain ⟨f, hf, hfe⟩ := mem_allTriplesOf.mp he
  obtain ⟨f', hf', hfe'⟩ := mem_allTriplesOf.mp hmem'
  exact ⟨e', he', (eq_iff_of_id hidentified hf hf' hfe hfe' hid.symm).1⟩

/-- In any order of the findings, everything is kept if they are uniform. -/
theorem mem_triplesOf_iff (huniform : AreUniform t resource found) {found' : List Finding}
    (hperm : found'.Perm found) {e : Triple} :
    e ∈ triplesOf t resource found' ↔ e ∈ allTriplesOf t resource found := by
  constructor
  · intro he
    exact (mem_allTriplesOf_perm hperm).mp (mem_allTriplesOf_of_mem_triplesOf he)
  · intro he
    obtain ⟨e', he', hid⟩ := exists_mem_triplesOf ((mem_allTriplesOf_perm hperm).mpr he)
    have hmem' := (mem_allTriplesOf_perm hperm).mp (mem_allTriplesOf_of_mem_triplesOf he')
    obtain ⟨f, hf, hfe⟩ := mem_allTriplesOf.mp he
    obtain ⟨f', hf', hfe'⟩ := mem_allTriplesOf.mp hmem'
    have hself := huniform f hf f' hf' e e' hfe hfe' hid.symm
    rw [(eq_iff_of_id hidentified hf hf' hfe hfe' hid.symm).2.mpr hself]
    exact he'

/-- Findings of which everything is kept are uniform. -/
theorem areUniform_of_kept
    (hkept : ∀ e ∈ allTriplesOf t resource found, e ∈ triplesOf t resource found) :
    AreUniform t resource found := by
  intro f hf f' hf' e e' hfe hfe' hid
  have he := hkept e (mem_allTriplesOf.mpr ⟨f, hf, hfe⟩)
  have he' := hkept e' (mem_allTriplesOf.mpr ⟨f', hf', hfe'⟩)
  exact (eq_iff_of_id hidentified hf hf' hfe hfe' hid).2.mp (eq_of_mem_triplesOf he he' hid)

end Kept

/-- **What the identity leaves out.** Two triples with one identity agree in everything but the
confidence, and they are equal just when both come from calls on the type around them or neither
does. So, apart from confidences, dropping repetitions loses nothing, in whatever order the walk
finds things; and the triples themselves are all kept, in any order, just when no triple from a call
on the type around it has the identity of another one. -/
theorem repetitions_exact {source : String}
    (hidentified : AreIdentified (allTriplesOf t resource (foundIn t source))) :
    let found := foundIn t source
    let all := allTriplesOf t resource found
    (∀ f ∈ found, ∀ f' ∈ found, ∀ e e', tripleOf? t resource (symbolsOf found) f = some e →
      tripleOf? t resource (symbolsOf found) f' = some e' → e.id = e'.id →
      SameButConfidence e e' ∧
        (e = e' ↔ (f.IsSelfCall t (symbolsOf found) ↔ f'.IsSelfCall t (symbolsOf found)))) ∧
    (∀ found' : List Finding, found'.Perm found →
      (∀ e ∈ triplesOf t resource found', e ∈ all) ∧
      ∀ e ∈ all, ∃ e' ∈ triplesOf t resource found', SameButConfidence e e') ∧
    ((∀ e, e ∈ (extract resource (some t) source).triples ↔ e ∈ all) ↔
      AreUniform t resource found) ∧
    ((∀ found' : List Finding, found'.Perm found →
      ∀ e, e ∈ triplesOf t resource found' ↔ e ∈ all) ↔ AreUniform t resource found) := by
  intro found all
  have hextract : (extract resource (some t) source).triples = triplesOf t resource found := rfl
  refine ⟨?_, ?_, ?_, ?_⟩
  · intro f hf f' hf' e e' he he' hid
    exact eq_iff_of_id hidentified hf hf' he he' hid
  · intro found' hperm
    constructor
    · intro e he
      exact (mem_allTriplesOf_perm hperm).mp (mem_allTriplesOf_of_mem_triplesOf he)
    · intro e he
      exact exists_sameButConfidence hidentified hperm he
  · rw [hextract]
    constructor
    · intro h
      exact areUniform_of_kept hidentified fun e he => (h e).mpr he
    · intro huniform e
      exact mem_triplesOf_iff hidentified huniform (List.Perm.refl _)
  · constructor
    · intro h
      exact areUniform_of_kept hidentified fun e he => (h found (List.Perm.refl _) e).mpr he
    · intro huniform found' hperm e
      exact mem_triplesOf_iff hidentified huniform hperm

/-- The same call twice on one line gives the same triple twice, and one of them is enough. -/
theorem repetitions_exact_twice :
    let t : Tree :=
      ⟨"python", .python,
        #[⟨"module", none, 0, 7, 1, 1, none, false⟩,
          ⟨"call", none, 0, 3, 1, 1, some 0, false⟩,
          ⟨"identifier", some "function", 0, 1, 1, 1, some 1, false⟩,
          ⟨"call", none, 4, 7, 1, 1, some 0, false⟩,
          ⟨"identifier", some "function", 4, 5, 1, 1, some 3, false⟩], by decide, _, rfl⟩
    let file := Resource.ofPath "/r" "a.py" .practice "python" .epoch
    let call := tripleOf file "a.py" .calls "f" "f" 1 .unresolved
    allTriplesOf t file (foundIn t "f();f()") = [call, call] ∧ AreIdentified [call, call] ∧
    ∀ e, e ∈ (extract file (some t) "f();f()").triples ↔ e ∈ [call, call] := by
  intro t file call
  have hfound : foundIn t "f();f()" = [.called "f" 1 [], .called "f" 1 []] := by decide +kernel
  have hall : allTriplesOf t file (foundIn t "f();f()") = [call, call] := by
    rw [hfound]
    rfl
  have hidentified : AreIdentified [call, call] :=
    { plain := by decide +kernel
      lines := by decide
      free := by
        intro a ha b hb _
        simp only [List.map_cons, List.map_nil, List.mem_cons, List.not_mem_nil, or_false,
          or_self] at ha hb
        rw [ha, hb] }
  have hplain : ∀ f ∈ foundIn t "f();f()", ¬ f.IsSelfCall t (symbolsOf (foundIn t "f();f()")) := by
    rw [hfound]
    intro f hf hself
    simp only [List.mem_cons, List.not_mem_nil, or_false, or_self] at hf
    rw [hf] at hself
    obtain ⟨receiver, member, owner, hsplit, -⟩ := hself
    have hnone : splitCallee? "f" = none := by decide +kernel
    rw [hnone] at hsplit
    cases hsplit
  have hkept := (repetitions_exact (hall ▸ hidentified)).2.2.1.mpr
    fun f hf f' hf' e e' _ _ _ => iff_of_false (hplain f hf) (hplain f' hf')
  exact ⟨hall, hidentified, fun e => (hkept e).trans (by rw [hall])⟩

/-- A class and, behind it on the same line, a call of its method through `this`. In the class the
same call is a method of the type around it; both come to the same target on the same line, but they
are not equally sure, and the second is lost. -/
theorem not_only_repetitions :
    let t : Tree :=
      ⟨"javascript", .ecmascript,
        #[⟨"program", none, 0, 32, 1, 1, none, false⟩,
          ⟨"class_declaration", none, 0, 24, 1, 1, some 0, false⟩,
          ⟨"identifier", some "name", 6, 7, 1, 1, some 1, false⟩,
          ⟨"class_body", some "body", 7, 24, 1, 1, some 1, false⟩,
          ⟨"method_definition", none, 8, 13, 1, 1, some 3, false⟩,
          ⟨"property_identifier", some "name", 8, 9, 1, 1, some 4, false⟩,
          ⟨"field_definition", none, 13, 23, 1, 1, some 3, false⟩,
          ⟨"call_expression", some "value", 15, 23, 1, 1, some 6, false⟩,
          ⟨"member_expression", some "function", 15, 21, 1, 1, some 7, false⟩,
          ⟨"expression_statement", none, 24, 32, 1, 1, some 0, false⟩,
          ⟨"call_expression", none, 24, 32, 1, 1, some 9, false⟩,
          ⟨"member_expression", some "function", 24, 30, 1, 1, some 10, false⟩], by decide, _, rfl⟩
    let source := "class T\x7bm()\x7b\x7dx=this.m()\x7dthis.m()"
    let file := Resource.ofPath "/r" "a.js" .practice "javascript" .epoch
    let inside := tripleOf file "a.js" .calls "this.m" "T.m" 1 .selfMethod
    let behind := tripleOf file "a.js" .calls "this.m" "T.m" 1 .uniqueMember
    AreIdentified (allTriplesOf t file (foundIn t source)) ∧
    inside ∈ allTriplesOf t file (foundIn t source) ∧
    behind ∈ allTriplesOf t file (foundIn t source) ∧
    inside.id = behind.id ∧ inside.confidence ≠ behind.confidence ∧
    behind ∉ (extract file (some t) source).triples := by
  intro t source file inside behind
  have hall : allTriplesOf t file (foundIn t source)
      = [tripleOf file "a.js" .defines "T" "T" 1 .exact, inside, behind] := by decide +kernel
  have hconfidence : inside.confidence ≠ behind.confidence := by decide +kernel
  refine ⟨?_, ?_, ?_, rfl, hconfidence, ?_⟩
  · rw [hall]
    exact ⟨by decide +kernel, by decide, by decide +kernel⟩
  · rw [hall]
    exact List.mem_cons_of_mem _ List.mem_cons_self
  · rw [hall]
    exact List.mem_cons_of_mem _ (List.mem_cons_of_mem _ List.mem_cons_self)
  · -- The first of the two is kept, and it is not this one.
    show behind ∉ triplesOf t file (foundIn t source)
    rw [triplesOf_eq, hall, mergeSort_eq_byKey]
    decide +kernel

end CodeIndex.Graph
