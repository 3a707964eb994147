import CodeIndex.Proofs.Graph.Callee
import CodeIndex.Proofs.Graph.Findings
import CodeIndex.Proofs.Keyed.Duplicates
import Mathlib.Algebra.Order.Ring.Rat
import Mathlib.Data.Finset.Card
import Mathlib.Data.Finset.Image
import Mathlib.Data.Finset.Lattice.Lemmas
import Mathlib.Data.Multiset.Count
import Mathlib.Tactic.NormNum
/-!
# The table of resolutions

What a call means, as a table with one row for each situation and its confidence
(`Symbols.Resolves`). A row asks for sets of definitions and of bindings, for how often a type
declares a method, and for the number of wildcard imports, and for nothing else of the declarations
of a file (`Symbols`).

`resolve_eq_table`: exactly one row of the table applies, and it says what the resolution is. So two
files with the same symbols resolve all calls alike, and so do two orders of the same declarations.

Confidences in the table are quotients. A resolution carries the quotient as a score, whose value is
what is stored when no step of the arithmetic is rounded (`Score.value`): what is stored is reckoned
in the same way, with rounded numbers (`Score.confidence_eq_reckon`).
-/

namespace CodeIndex.Graph

/-! ### Scores in exact arithmetic -/

namespace Score

/-- How a score is reckoned: so many tenths are shared among the candidates, and the result is at
least a fifth. It takes numbers that come as quotients, and can be divided and compared. -/
def reckon {α : Type} (ratio : Nat → Nat → α) (div max : α → α → α) (s : Score) : α :=
  max (div (ratio s.tenths 10) (ratio s.share 1)) (ratio 2 10)

/-- What is stored is reckoned with rounded numbers. -/
theorem confidence_eq_reckon (s : Score) :
    s.confidence
      = s.reckon Number.Binary32.ofRatio Number.Binary32.div Number.Binary32.max := by
  rw [confidence, reckon, Number.Binary32.ofNat]

/-- The score reckoned with exact numbers. -/
def value (s : Score) : ℚ :=
  s.reckon (fun m n => (m : ℚ) / n) (· / ·) max

theorem value_eq (s : Score) : s.value = max ((s.tenths : ℚ) / 10 / s.share) (1 / 5) := by
  rw [value, reckon, Nat.cast_one, div_one]
  norm_num

@[simp] theorem value_exact : exact.value = 1 := by
  rw [value_eq, exact]
  norm_num

@[simp] theorem value_selfMethod : selfMethod.value = 9 / 10 := by
  rw [value_eq, selfMethod]
  norm_num

@[simp] theorem value_importedReceiver : importedReceiver.value = 4 / 5 := by
  rw [value_eq, importedReceiver]
  norm_num

@[simp] theorem value_uniqueMember : uniqueMember.value = 1 / 2 := by
  rw [value_eq, uniqueMember]
  norm_num

@[simp] theorem value_unresolved : unresolved.value = 2 / 5 := by
  rw [value_eq, unresolved]
  norm_num

@[simp] theorem value_dynamic : dynamic.value = 3 / 10 := by
  rw [value_eq, dynamic]
  norm_num

@[simp] theorem value_oneOf (n : Nat) : (oneOf n).value = max (1 / (n : ℚ)) (1 / 5) := by
  rw [value_eq, oneOf]
  norm_num

@[simp] theorem value_fromWildcards (n : Nat) :
    (fromWildcards n).value = max (1 / (2 * (n : ℚ))) (1 / 5) := by
  rw [value_eq, fromWildcards, ← div_div]
  norm_num

@[simp] theorem value_memberOfOneOf (n : Nat) :
    (memberOfOneOf n).value = max (4 / (5 * (n : ℚ))) (1 / 5) := by
  rw [value_eq, memberOfOneOf, ← div_div]
  norm_num

end Score

/-! ### Declarations and what counts of them -/

/-- One declaration of a file. -/
inductive Declaration where
  | define (name qualified : String)
  | defineMethod (owner name : String)
  | addImport (i : Import)

namespace Declaration

/-- The symbols after one more declaration. -/
def addTo (table : SymbolTable) : Declaration → SymbolTable
  | define name qualified => table.define name qualified
  | defineMethod owner name => table.defineMethod owner name
  | addImport i => table.addImport i

/-- The simple and the qualified name that are defined. -/
def definition? : Declaration → Option (String × String)
  | define name qualified => some (name, qualified)
  | _ => none

/-- The type and the name of the method that is declared. -/
def method? : Declaration → Option (String × String)
  | defineMethod owner name => some (owner, name)
  | _ => none

/-- The import that is declared. -/
def import? : Declaration → Option Import
  | addImport i => some i
  | _ => none

end Declaration

/-- The symbol table of some declarations, made one after the other. -/
def SymbolTable.ofDeclarations (ds : List Declaration) : SymbolTable :=
  ds.foldl Declaration.addTo .empty

/-- What counts of the declarations of a file: what is defined and what is bound, no matter how
often; methods with how often they are declared; and the number of wildcard imports. -/
structure Symbols where
  definitions : Finset (String × String)
  bindings : Finset (String × String)
  methods : Multiset (String × String)
  wildcards : Nat

/-- What a set of pairs has for a name. -/
def named (pairs : Finset (String × String)) (name : String) : Finset String :=
  (pairs.filter fun pair => pair.1 = name).image (·.2)

namespace Symbols

/-- The symbols of some declarations. -/
def ofDeclarations (ds : List Declaration) : Symbols where
  definitions := (ds.filterMap Declaration.definition?).toFinset
  bindings := (bindingsOf (ds.filterMap Declaration.import?)).toFinset
  methods := ds.filterMap Declaration.method?
  wildcards := (ds.filterMap Declaration.import?).countP (·.wildcard)

/-- What a plain name may mean: what is defined or bound under it. -/
def candidates (s : Symbols) (name : String) : Finset String :=
  named s.definitions name ∪ named s.bindings name

/-! ### The table -/

variable (s : Symbols) (profile : Language.Profile) (callee : String) (enclosing : Option String)

/-- The receiver stands for the type around the call, which declares the member exactly once. -/
def IsSelfCall (receiver member owner : String) : Prop :=
  receiver ∈ profile.selfReceivers ∧ enclosing = some owner ∧ s.methods.count (owner, member) = 1

/-- The table: what a callee means in a type or outside every type, and with what confidence. -/
inductive Resolves : String → ℚ → Prop where
  /-- A plain name with one candidate. -/
  | candidate {target : String} : splitCallee? callee = none →
      s.candidates callee = {target} → Resolves target 1
  /-- A plain name with several candidates. -/
  | candidates : splitCallee? callee = none → 2 ≤ (s.candidates callee).card →
      Resolves callee (max (1 / (s.candidates callee).card) (1 / 5))
  /-- A plain name that may come from a wildcard import. -/
  | wildcards : splitCallee? callee = none → s.candidates callee = ∅ → 0 < s.wildcards →
      Resolves callee (max (1 / (2 * s.wildcards)) (1 / 5))
  /-- A plain name without any candidate. -/
  | unknown : splitCallee? callee = none → s.candidates callee = ∅ → s.wildcards = 0 →
      Resolves callee (2 / 5)
  /-- A method of the type around the call. -/
  | selfMethod {receiver member owner : String} :
      splitCallee? callee = some (receiver, member) →
      s.IsSelfCall profile enclosing receiver member owner →
      Resolves (owner ++ profile.separator ++ member) (9 / 10)
  /-- A member of something that is imported under one meaning. -/
  | imported {receiver member target rest : String} :
      splitCallee? callee = some (receiver, member) →
      (∀ owner, ¬ s.IsSelfCall profile enclosing receiver member owner) →
      named s.bindings (receiverRoot receiver) = {target} →
      callee = receiverRoot receiver ++ rest → Resolves (target ++ rest) (4 / 5)
  /-- A member of something that is imported under several meanings. -/
  | importedTwice {receiver member : String} :
      splitCallee? callee = some (receiver, member) →
      (∀ owner, ¬ s.IsSelfCall profile enclosing receiver member owner) →
      2 ≤ (named s.bindings (receiverRoot receiver)).card →
      Resolves callee (max (4 / (5 * (named s.bindings (receiverRoot receiver)).card)) (1 / 5))
  /-- A member of something that is not imported, and the only definition of that name. -/
  | onlyMember {receiver member target : String} :
      splitCallee? callee = some (receiver, member) →
      (∀ owner, ¬ s.IsSelfCall profile enclosing receiver member owner) →
      named s.bindings (receiverRoot receiver) = ∅ →
      named s.definitions member = {target} → Resolves target (1 / 2)
  /-- Any other member. -/
  | dynamic {receiver member : String} :
      splitCallee? callee = some (receiver, member) →
      (∀ owner, ¬ s.IsSelfCall profile enclosing receiver member owner) →
      named s.bindings (receiverRoot receiver) = ∅ →
      (∀ target, named s.definitions member ≠ {target}) → Resolves callee (3 / 10)

end Symbols

/-! ### Lists of distinct meanings -/

/-- The elements of a set, each once. -/
structure Lists (l : List String) (names : Finset String) : Prop where
  nodup : l.Nodup
  toFinset_eq : l.toFinset = names

theorem lists_eraseDups {l : List String} {names : Finset String} (h : l.toFinset = names) :
    Lists l.eraseDups names where
  nodup := Keyed.nodup_eraseDups l
  toFinset_eq := by
    rw [← h]
    ext name
    rw [List.mem_toFinset, List.mem_toFinset, List.mem_eraseDups]

/-- A choice by whether there is no meaning, one, or several. -/
def byCount {α : Type} (none : α) (one : String → α) (several : Nat → α) : List String → α
  | [] => none
  | [only] => one only
  | l => several l.length

section ByCount

variable {α : Type} {none : α} {one : String → α} {several : Nat → α} {l : List String}
  {names : Finset String}

theorem Lists.byCount_of_eq_empty (h : Lists l names) (hnames : names = ∅) :
    byCount none one several l = none := by
  rw [← h.toFinset_eq, List.toFinset_eq_empty_iff] at hnames
  rw [hnames, byCount]

theorem Lists.byCount_of_eq_singleton (h : Lists l names) {name : String}
    (hnames : names = {name}) : byCount none one several l = one name := by
  have hlength : l.length = 1 := by
    rw [← List.toFinset_card_of_nodup h.nodup, h.toFinset_eq, hnames, Finset.card_singleton]
  obtain ⟨only, rfl⟩ := List.length_eq_one_iff.mp hlength
  have honly : only ∈ names := h.toFinset_eq ▸ List.mem_toFinset.mpr List.mem_cons_self
  rw [hnames, Finset.mem_singleton] at honly
  rw [byCount, honly]

theorem Lists.byCount_of_two_le (h : Lists l names) (hnames : 2 ≤ names.card) :
    byCount none one several l = several names.card := by
  rw [← h.toFinset_eq, List.toFinset_card_of_nodup h.nodup] at hnames ⊢
  match l, hnames with
  | _ :: _ :: _, _ => rfl

/-- Which order the meanings are listed in does not matter. -/
theorem Lists.byCount_eq {l' : List String} {names' : Finset String} (h : Lists l names)
    (h' : Lists l' names') (hnames : names = names') :
    byCount none one several l = byCount none one several l' := by
  subst hnames
  have hperm : l.Perm l' := by
    rw [List.perm_ext_iff_of_nodup h.nodup h'.nodup]
    intro name
    rw [← List.mem_toFinset, ← List.mem_toFinset, h.toFinset_eq, h'.toFinset_eq]
  match l, l', hperm with
  | [], _, hperm => rw [List.nil_perm.mp hperm]
  | [only], _, hperm => rw [List.singleton_perm.mp hperm]
  | _ :: _ :: _, [], hperm => exact absurd hperm.length_eq (by simp)
  | _ :: _ :: _, [_], hperm => exact absurd hperm.length_eq (by simp)
  | _ :: _ :: _, _ :: _ :: _, hperm => exact congrArg several hperm.length_eq

end ByCount

theorem eq_empty_or_singleton_or_two_le (names : Finset String) :
    names = ∅ ∨ (∃ name, names = {name}) ∨ 2 ≤ names.card := by
  rcases Nat.lt_or_ge names.card 2 with hlt | hge
  · rcases Nat.le_one_iff_eq_zero_or_eq_one.mp (Nat.le_of_lt_succ hlt) with h | h
    · exact Or.inl (Finset.card_eq_zero.mp h)
    · exact Or.inr (Or.inl (Finset.card_eq_one.mp h))
  · exact Or.inr (Or.inr hge)

/-! ### Resolution by counts -/

namespace SymbolTable

variable (table : SymbolTable)

/-- What counts of a symbol table. -/
def symbols : Symbols where
  definitions := table.definitions.toFinset
  bindings := table.bindings.toFinset
  methods := table.methods
  wildcards := table.wildcardImports

theorem toFinset_targets (pairs : List (String × String)) (name : String) :
    (targets pairs name).toFinset = named pairs.toFinset name := by
  ext target
  simp [targets, named]

theorem lists_definitionsOf (name : String) :
    Lists (table.definitionsOf name) (named table.symbols.definitions name) :=
  lists_eraseDups (toFinset_targets _ _)

theorem lists_bindingsOf (name : String) :
    Lists (table.bindingsOf name) (named table.symbols.bindings name) :=
  lists_eraseDups (toFinset_targets _ _)

theorem lists_candidates (name : String) :
    Lists (table.candidates name) (table.symbols.candidates name) :=
  lists_eraseDups (by rw [List.toFinset_append, toFinset_targets, toFinset_targets]; rfl)

theorem methodCount_eq (owner name : String) :
    table.methodCount owner name = table.symbols.methods.count (owner, name) := by
  rw [methodCount, symbols, Multiset.coe_count]
  exact List.countP_congr fun pair _ => by simp

/-- What a plain name means when it has no candidate. -/
def resolveUndeclared (name : String) : Resolution :=
  if 0 < table.wildcardImports then ⟨name, .fromWildcards table.wildcardImports⟩
  else ⟨name, .unresolved⟩

theorem resolvePlain_eq (name : String) :
    table.resolvePlain name =
      byCount (table.resolveUndeclared name) (⟨·, .exact⟩) (⟨name, .oneOf ·⟩)
        (table.candidates name) := by
  rw [resolvePlain]
  match table.candidates name with
  | [] => rfl
  | [_] => rfl
  | _ :: _ :: _ => rfl

theorem resolveUnknownReceiver_eq (callee member : String) :
    table.resolveUnknownReceiver callee member =
      byCount ⟨callee, .dynamic⟩ (⟨·, .uniqueMember⟩) (fun _ => ⟨callee, .dynamic⟩)
        (table.definitionsOf member) := by
  rw [resolveUnknownReceiver]
  match table.definitionsOf member with
  | [] => rfl
  | [_] => rfl
  | _ :: _ :: _ => rfl

theorem resolveReceiver_eq (callee receiver member : String) :
    table.resolveReceiver callee receiver member =
      byCount (table.resolveUnknownReceiver callee member)
        (fun only => ⟨only ++ String.ofList (callee.toList.drop (receiverRoot receiver).length),
          .importedReceiver⟩)
        (⟨callee, .memberOfOneOf ·⟩) (table.bindingsOf (receiverRoot receiver)) := by
  rw [resolveReceiver]
  cases table.bindingsOf (receiverRoot receiver) with
  | nil => rfl
  | cons only rest => cases rest <;> rfl

variable {table} {profile : Language.Profile} {callee : String} {enclosing : Option String}

theorem resolve_plain (h : splitCallee? callee = none) :
    table.resolve profile callee enclosing = table.resolvePlain callee := by
  rw [resolve, h]

theorem resolve_selfCall {receiver member owner : String}
    (h : splitCallee? callee = some (receiver, member))
    (hself : table.symbols.IsSelfCall profile enclosing receiver member owner) :
    table.resolve profile callee enclosing
      = ⟨owner ++ profile.separator ++ member, .selfMethod⟩ := by
  obtain ⟨hreceiver, rfl, hcount⟩ := hself
  have hself : (profile.selfReceivers.contains receiver &&
      table.methodCount owner member == 1) = true := by
    rw [Bool.and_eq_true, List.contains_iff_mem, beq_iff_eq, methodCount_eq]
    exact ⟨hreceiver, hcount⟩
  rw [resolve, h]
  exact if_pos hself

theorem resolve_receiver {receiver member : String}
    (h : splitCallee? callee = some (receiver, member))
    (hself : ∀ owner, ¬ table.symbols.IsSelfCall profile enclosing receiver member owner) :
    table.resolve profile callee enclosing = table.resolveReceiver callee receiver member := by
  rw [resolve, h]
  cases enclosing with
  | none => rfl
  | some owner =>
    refine if_neg fun hcall => hself owner ?_
    rw [Bool.and_eq_true, List.contains_iff_mem, beq_iff_eq, methodCount_eq] at hcall
    exact ⟨hcall.1, rfl, hcall.2⟩

/-- Only what counts of a symbol table decides on a resolution. -/
theorem resolve_congr {table' : SymbolTable} (h : table'.symbols = table.symbols) :
    table'.resolve profile callee enclosing = table.resolve profile callee enclosing := by
  have hwildcards : table'.wildcardImports = table.wildcardImports :=
    congrArg Symbols.wildcards h
  cases hsplit : splitCallee? callee with
  | none =>
    rw [resolve_plain hsplit, resolve_plain hsplit, resolvePlain_eq, resolvePlain_eq,
      resolveUndeclared, resolveUndeclared, hwildcards]
    exact (table'.lists_candidates callee).byCount_eq (table.lists_candidates callee) (by rw [h])
  | some parts =>
    obtain ⟨receiver, member⟩ := parts
    by_cases hself : ∃ owner, table.symbols.IsSelfCall profile enclosing receiver member owner
    · obtain ⟨owner, hself⟩ := hself
      rw [resolve_selfCall hsplit hself, resolve_selfCall hsplit (h ▸ hself)]
    · rw [not_exists] at hself
      rw [resolve_receiver hsplit hself, resolve_receiver hsplit (h ▸ hself), resolveReceiver_eq,
        resolveReceiver_eq, resolveUnknownReceiver_eq, resolveUnknownReceiver_eq,
        (table'.lists_definitionsOf member).byCount_eq (table.lists_definitionsOf member)
          (by rw [h])]
      exact (table'.lists_bindingsOf _).byCount_eq (table.lists_bindingsOf _) (by rw [h])

end SymbolTable

/-! ### The table is met -/

namespace Symbols

/-- Some row applies to every callee. -/
theorem exists_resolves (s : Symbols) (profile : Language.Profile) (callee : String)
    (enclosing : Option String) :
    ∃ target confidence, s.Resolves profile callee enclosing target confidence := by
  cases hsplit : splitCallee? callee with
  | none =>
    rcases eq_empty_or_singleton_or_two_le (s.candidates callee) with hnone | ⟨_, hone⟩ | hmany
    · rcases Nat.eq_zero_or_pos s.wildcards with hzero | hpos
      · exact ⟨_, _, .unknown hsplit hnone hzero⟩
      · exact ⟨_, _, .wildcards hsplit hnone hpos⟩
    · exact ⟨_, _, .candidate hsplit hone⟩
    · exact ⟨_, _, .candidates hsplit hmany⟩
  | some parts =>
    obtain ⟨receiver, member⟩ := parts
    by_cases hself : ∃ owner, s.IsSelfCall profile enclosing receiver member owner
    · obtain ⟨owner, hself⟩ := hself
      exact ⟨_, _, .selfMethod hsplit hself⟩
    · rw [not_exists] at hself
      rcases eq_empty_or_singleton_or_two_le (named s.bindings (receiverRoot receiver))
        with hnone | ⟨_, hone⟩ | hmany
      · by_cases honly : ∃ target, named s.definitions member = {target}
        · obtain ⟨_, honly⟩ := honly
          exact ⟨_, _, .onlyMember hsplit hself hnone honly⟩
        · exact ⟨_, _, .dynamic hsplit hself hnone (not_exists.mp honly)⟩
      · obtain ⟨rest, hrest⟩ := exists_rest_of_splitCallee? hsplit
        exact ⟨_, _, .imported hsplit hself hone hrest⟩
      · exact ⟨_, _, .importedTwice hsplit hself hmany⟩

variable {table : SymbolTable} {profile : Language.Profile} {callee target : String}
  {enclosing : Option String} {confidence : ℚ}

/-- A row that applies says what the resolution is. -/
theorem Resolves.eq_resolve
    (h : table.symbols.Resolves profile callee enclosing target confidence) :
    target = (table.resolve profile callee enclosing).target ∧
    confidence = (table.resolve profile callee enclosing).score.value := by
  cases h with
  | candidate hplain hone =>
    rw [SymbolTable.resolve_plain hplain, SymbolTable.resolvePlain_eq,
      (table.lists_candidates callee).byCount_of_eq_singleton hone]
    exact ⟨rfl, Score.value_exact.symm⟩
  | candidates hplain hmany =>
    rw [SymbolTable.resolve_plain hplain, SymbolTable.resolvePlain_eq,
      (table.lists_candidates callee).byCount_of_two_le hmany]
    exact ⟨rfl, (Score.value_oneOf _).symm⟩
  | wildcards hplain hnone hpos =>
    have hpos : 0 < table.wildcardImports := hpos
    rw [SymbolTable.resolve_plain hplain, SymbolTable.resolvePlain_eq,
      (table.lists_candidates callee).byCount_of_eq_empty hnone, SymbolTable.resolveUndeclared,
      if_pos hpos]
    exact ⟨rfl, (Score.value_fromWildcards _).symm⟩
  | unknown hplain hnone hzero =>
    have hzero : ¬ 0 < table.wildcardImports := Nat.not_lt.mpr (Nat.le_zero.mpr hzero)
    rw [SymbolTable.resolve_plain hplain, SymbolTable.resolvePlain_eq,
      (table.lists_candidates callee).byCount_of_eq_empty hnone, SymbolTable.resolveUndeclared,
      if_neg hzero]
    exact ⟨rfl, Score.value_unresolved.symm⟩
  | selfMethod hsplit hself =>
    rw [SymbolTable.resolve_selfCall hsplit hself]
    exact ⟨rfl, Score.value_selfMethod.symm⟩
  | @imported receiver member only rest hsplit hself hone hrest =>
    rw [SymbolTable.resolve_receiver hsplit hself, SymbolTable.resolveReceiver_eq,
      (table.lists_bindingsOf _).byCount_of_eq_singleton hone, drop_of_eq_append hrest]
    exact ⟨rfl, Score.value_importedReceiver.symm⟩
  | importedTwice hsplit hself hmany =>
    rw [SymbolTable.resolve_receiver hsplit hself, SymbolTable.resolveReceiver_eq,
      (table.lists_bindingsOf _).byCount_of_two_le hmany]
    exact ⟨rfl, (Score.value_memberOfOneOf _).symm⟩
  | onlyMember hsplit hself hnone honly =>
    rw [SymbolTable.resolve_receiver hsplit hself, SymbolTable.resolveReceiver_eq,
      (table.lists_bindingsOf _).byCount_of_eq_empty hnone, SymbolTable.resolveUnknownReceiver_eq,
      (table.lists_definitionsOf _).byCount_of_eq_singleton honly]
    exact ⟨rfl, Score.value_uniqueMember.symm⟩
  | @dynamic receiver member hsplit hself hnone hother =>
    have hdynamic : table.resolveUnknownReceiver callee member = ⟨callee, .dynamic⟩ := by
      rw [SymbolTable.resolveUnknownReceiver_eq]
      rcases eq_empty_or_singleton_or_two_le (named table.symbols.definitions member)
        with hempty | ⟨only, honly⟩ | hmany
      · exact (table.lists_definitionsOf member).byCount_of_eq_empty hempty
      · exact absurd honly (hother only)
      · exact (table.lists_definitionsOf member).byCount_of_two_le hmany
    rw [SymbolTable.resolve_receiver hsplit hself, SymbolTable.resolveReceiver_eq,
      (table.lists_bindingsOf _).byCount_of_eq_empty hnone, hdynamic]
    exact ⟨rfl, Score.value_dynamic.symm⟩

/-- Exactly one row applies, and it says what the resolution is. -/
theorem resolves_iff :
    table.symbols.Resolves profile callee enclosing target confidence ↔
      target = (table.resolve profile callee enclosing).target ∧
      confidence = (table.resolve profile callee enclosing).score.value := by
  refine ⟨Resolves.eq_resolve, ?_⟩
  rintro ⟨rfl, rfl⟩
  obtain ⟨target, confidence, hrow⟩ := table.symbols.exists_resolves profile callee enclosing
  obtain ⟨rfl, rfl⟩ := hrow.eq_resolve
  exact hrow

/-! ### Declarations -/

/-- Nothing else counts of declarations than what counts of their table. -/
theorem symbols_ofDeclarations (ds : List Declaration) :
    (SymbolTable.ofDeclarations ds).symbols = ofDeclarations ds := by
  induction ds using List.reverseRecOn with
  | nil => rfl
  | append_singleton ds d ih =>
    rw [SymbolTable.ofDeclarations] at ih ⊢
    rw [List.foldl_append, List.foldl_cons, List.foldl_nil]
    generalize ds.foldl Declaration.addTo .empty = table at *
    rw [SymbolTable.symbols, ofDeclarations, Symbols.mk.injEq] at ih
    obtain ⟨hdefinitions, hbindings, hmethods, hwildcards⟩ := ih
    rw [SymbolTable.symbols, ofDeclarations, Symbols.mk.injEq, List.filterMap_append,
      List.filterMap_append, List.filterMap_append, bindingsOf, List.flatMap_append,
      List.toFinset_append, List.toFinset_append, ← Multiset.coe_add, List.countP_append,
      ← bindingsOf, ← hdefinitions, ← hbindings, ← hmethods, ← hwildcards]
    cases d with
    | define name qualified =>
      simp [Declaration.addTo, SymbolTable.define, List.filterMap_cons, Declaration.definition?,
        Declaration.method?, Declaration.import?]
    | defineMethod owner name =>
      have hcons : (((owner, name) :: table.methods : List _) : Multiset (String × String))
          = ↑table.methods + {(owner, name)} := by
        rw [← Multiset.cons_coe, Multiset.add_comm, Multiset.singleton_add]
      simp [Declaration.addTo, SymbolTable.defineMethod, List.filterMap_cons,
        Declaration.definition?, Declaration.method?, Declaration.import?, hcons]
    | addImport i =>
      cases hwildcard : i.wildcard <;>
        simp [Declaration.addTo, SymbolTable.addImport, List.filterMap_cons,
          Declaration.definition?, Declaration.method?, Declaration.import?, Finset.union_comm,
          hwildcard]

/-- The order of declarations does not count. -/
theorem ofDeclarations_perm {ds ds' : List Declaration} (h : ds.Perm ds') :
    ofDeclarations ds = ofDeclarations ds' := by
  have himports := h.filterMap Declaration.import?
  rw [ofDeclarations, ofDeclarations, Symbols.mk.injEq]
  refine ⟨List.toFinset_eq_of_perm _ _ (h.filterMap _),
    List.toFinset_eq_of_perm _ _ (himports.flatMap_right _),
    Multiset.coe_eq_coe.mpr (h.filterMap _), himports.countP_eq _⟩

end Symbols

/-- **Resolution follows the table.** Exactly one row of the table applies to a callee, given the
symbols of the declarations, and what it says is the resolution, with its confidence in exact
arithmetic. Declarations with the same symbols resolve every callee alike, and so does any other
order of them. -/
theorem resolve_eq_table (profile : Language.Profile) (callee : String) (enclosing : Option String)
    (ds : List Declaration) :
    let resolve := fun ds => (SymbolTable.ofDeclarations ds).resolve profile callee enclosing
    (∀ target confidence,
      (Symbols.ofDeclarations ds).Resolves profile callee enclosing target confidence ↔
        target = (resolve ds).target ∧ confidence = (resolve ds).score.value) ∧
    (∀ ds', Symbols.ofDeclarations ds' = Symbols.ofDeclarations ds → resolve ds' = resolve ds) ∧
    (∀ ds', ds'.Perm ds → resolve ds' = resolve ds) := by
  intro resolve
  have hsame : ∀ ds', Symbols.ofDeclarations ds' = Symbols.ofDeclarations ds →
      resolve ds' = resolve ds := by
    intro ds' h
    rw [← Symbols.symbols_ofDeclarations, ← Symbols.symbols_ofDeclarations] at h
    exact SymbolTable.resolve_congr h
  refine ⟨fun target confidence => ?_, hsame, fun ds' hperm => ?_⟩
  · rw [← Symbols.symbols_ofDeclarations]
    exact Symbols.resolves_iff
  · exact hsame ds' (Symbols.ofDeclarations_perm hperm)

end CodeIndex.Graph
