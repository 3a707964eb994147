import CodeIndex.Proofs.Graph.Findings
/-!
# Extraction computes the meaning of a file

Where the callee of every call fits the source, extraction meets no fault, and its triples are the
meaning of the file (`extract_eq_meaning`): the walk finds what the visible nodes give, the findings
declare the symbols of the whole file, and each finding becomes the triple of its node.
-/

namespace CodeIndex.Graph

open CodeIndex.Syntax

/-- What each element gives at most once is listed alike before and after taking lists apart. -/
theorem filterMap_flatMap_of_toList {α β γ : Type} {f : α → List β} {g : β → Option γ}
    {h : α → Option γ} (hone : ∀ x, (f x).filterMap g = (h x).toList) (xs : List α) :
    (xs.flatMap f).filterMap g = xs.filterMap h := by
  induction xs with
  | nil => rfl
  | cons x xs ih =>
    rw [List.flatMap_cons, List.filterMap_append, hone, ih, List.filterMap_cons]
    cases h x <;> rfl

/-- Visits without a fault leave the walk to go on with the next ones. -/
theorem findings_append {t : Tree} {source : String} {f : Visit → List Finding}
    (walked rest : List Visit) (h : ∀ visit ∈ walked, findingsAt t source visit = .ok (f visit)) :
    findings t source (walked ++ rest)
      = (walked.flatMap f ++ (findings t source rest).1, (findings t source rest).2) := by
  induction walked with
  | nil => rfl
  | cons visit walked ih =>
    rw [List.cons_append, findings, h visit (List.mem_cons_self ..)]
    simp only
    rw [ih fun v hv => h v (List.mem_cons_of_mem _ hv), List.flatMap_cons, List.append_assoc]

/-- The findings of visits without a fault. -/
theorem findings_eq {t : Tree} {source : String} {f : Visit → List Finding} (all : List Visit)
    (h : ∀ visit ∈ all, findingsAt t source visit = .ok (f visit)) :
    findings t source all = (all.flatMap f, none) := by
  have happend := findings_append all [] h
  rwa [findings, List.append_nil, List.append_nil] at happend

section Nodes

variable (t : Tree) (source : String)

/-! ### What the findings of a node declare -/

/-- Imports, the definition and the call of a node can be looked at one after the other. -/
theorem filterMap_findingsOf {γ : Type} (g : Finding → Option γ) (id : Nat) :
    (findingsOf t source id).filterMap g
      = (importsAt t source id).filterMap (fun i => g (.imported i)) ++
          ((defined? t source id).bind g).toList ++ ((called? t source id).bind g).toList := by
  rw [findingsOf, List.filterMap_append, List.filterMap_append, List.filterMap_map]
  cases defined? t source id <;> cases called? t source id <;> simp <;> rfl

theorem filterMap_import?_findingsOf (id : Nat) :
    (findingsOf t source id).filterMap Finding.import? = importsAt t source id := by
  rw [filterMap_findingsOf, defined?, called?]
  cases definition? t source id <;> cases callee? t source id <;> simp [Finding.import?]

theorem filterMap_definition?_findingsOf (id : Nat) :
    (findingsOf t source id).filterMap Finding.definition? = (definition? t source id).toList := by
  rw [filterMap_findingsOf, defined?, called?]
  cases definition? t source id <;> cases callee? t source id <;> simp [Finding.definition?]

/-- A method is defined under the simple name of its definition. -/
theorem method?_eq (id : Nat) :
    method? t source id
      = (definition? t source id).bind fun definition =>
          ((method? t source id).map (·.1)).map fun owner => (owner, definition.1) := by
  rw [definition?_eq, method?]
  cases hname : definedName? t source id with
  | none => simp
  | some name =>
    cases t.profile.isFunction (t.kind id) with
    | false => rfl
    | true =>
      cases (enclosing t source id).head? with
      | none => rfl
      | some owner =>
        simp only [Option.bind_eq_bind, Option.bind_some, Option.map_some, if_true]
        cases isTypeLike t owner <;> cases qualifiedName? t source owner <;> rfl

theorem filterMap_method?_findingsOf (id : Nat) :
    (findingsOf t source id).filterMap Finding.method? = (method? t source id).toList := by
  rw [filterMap_findingsOf, defined?, called?, method?_eq]
  cases definition? t source id <;> cases method? t source id <;> cases callee? t source id <;>
    simp [Finding.method?]

/-- The findings of some nodes together declare the symbols of these nodes. -/
theorem symbolsOf_findingsOf (nodes : List Nat) :
    symbolsOf (nodes.flatMap (findingsOf t source)) = symbolsAmong t source nodes := by
  have himports : (nodes.flatMap (findingsOf t source)).filterMap Finding.import?
      = nodes.flatMap (importsAt t source) := by
    rw [List.filterMap_flatMap]
    congr 1
    funext id
    exact filterMap_import?_findingsOf t source id
  rw [symbolsOf_eq, himports,
    filterMap_flatMap_of_toList (filterMap_definition?_findingsOf t source),
    filterMap_flatMap_of_toList (filterMap_method?_findingsOf t source)]
  rfl

end Nodes

section Triples

variable (resource : Resource) {t : Tree} (source : String)

/-! ### The triples of a node -/

theorem filterMap_declarationTriple?_findingsOf (id : Nat) :
    (findingsOf t source id).filterMap (declarationTriple? resource)
      = (importsAt t source id).map (importTriple resource)
          ++ (definesTriple? resource t source id).toList := by
  have himports : (fun i => declarationTriple? resource (.imported i))
      = some ∘ importTriple resource := rfl
  rw [filterMap_findingsOf, himports, List.filterMap_eq_map, defined?, called?, definesTriple?]
  cases definition? t source id with
  | none => cases callee? t source id <;> simp [declarationTriple?]
  | some definition =>
    cases t.profile.isType (t.kind id) <;> cases callee? t source id <;>
      simp [declarationTriple?, tripleOf]

variable (hkinds : t.profile.KindsDisjoint)
include hkinds

/-- Of named definitions those are functions that are neither types nor containers. -/
theorem nearestFunction?_eq (id : Nat) :
    nearestFunction? t source id = (enclosing t source id).find? fun a => !isTypeLike t a := by
  rw [nearestFunction?, enclosing, List.find?_filter, List.find?_filter]
  congr 1
  funext a
  cases hname : definedName? t source a with
  | none => simp
  | some name =>
    cases hfunction : t.profile.isFunction (t.kind a) with
    | true =>
      obtain ⟨htype, hcontainer, -⟩ := hkinds.of_isFunction hfunction
      simp [isTypeLike, htype, hcontainer]
    | false =>
      -- A name without a function is that of a type or a container.
      cases htype : isTypeLike t a with
      | true => simp
      | false => simp [definedName?_eq_none source htype hfunction] at hname

theorem filterMap_callTriple?_findingsOf (nodes : List Nat) (id : Nat) :
    (findingsOf t source id).filterMap (callTriple? t resource (symbolsAmong t source nodes))
      = (callsTripleAmong? resource t source nodes id).toList := by
  have hsubject := find?_scopesAt t source (fun isFunction => isFunction) id
  have howner := find?_scopesAt t source (fun isFunction => !isFunction) id
  simp only [Bool.not_not] at howner
  rw [filterMap_findingsOf, defined?, called?, callsTripleAmong?,
    nearestFunction?_eq source hkinds, nearestType?, ← hsubject, ← howner]
  cases definition? t source id <;> cases callee? t source id <;> simp [callTriple?, tripleOf]

/-- The triples of the findings of some nodes are what these nodes mean. -/
theorem triplesOf_findingsOf_among (nodes : List Nat) :
    triplesOf t resource (nodes.flatMap (findingsOf t source))
      = meaningAmong resource t source nodes := by
  have hdeclared : (nodes.flatMap (findingsOf t source)).filterMap (declarationTriple? resource)
      = nodes.flatMap fun id =>
          (importsAt t source id).map (importTriple resource)
            ++ (definesTriple? resource t source id).toList := by
    rw [List.filterMap_flatMap]
    congr 1
    funext id
    exact filterMap_declarationTriple?_findingsOf resource source id
  rw [triplesOf, symbolsOf_findingsOf, hdeclared,
    filterMap_flatMap_of_toList (filterMap_callTriple?_findingsOf resource source hkinds nodes),
    distinctOn_nil_eq, mergeSort_eq_byKey]
  rfl

/-- The triples of all findings are the meaning of the file. -/
theorem triplesOf_findingsOf :
    triplesOf t resource ((visibleNodes t).flatMap (findingsOf t source))
      = meaning resource t source := by
  rw [meaning_eq_among]
  exact triplesOf_findingsOf_among resource source hkinds (visibleNodes t)

/-- Where kinds of nodes do not overlap, extraction from a source that the callees of all calls fit
gives the meaning of the file. -/
theorem extract_eq_of_kindsDisjoint
    (hfit : ∀ id ∈ visibleNodes t, ∀ callee, calleeNode? t id = some callee →
      (t.text? callee source).isSome) :
    extract resource (some t) source = ⟨meaning resource t source, none⟩ := by
  -- Each visit stands for a visible node in the scopes of its ancestors.
  have hvisits : ∀ visit ∈ visits t source,
      findingsAt t source visit = .ok (findingsOf t source visit.node) := by
    intro visit hvisit
    rw [visits_eq] at hvisit
    obtain ⟨id, hid, rfl⟩ := List.mem_map.mp hvisit
    exact findingsAt_scopesAt source hkinds (hfit id hid)
  have hfindings := findings_eq _ hvisits
  rw [visits_eq, List.flatMap_map] at hfindings
  rw [extract, visits_eq, hfindings]
  simp only
  rw [triplesOf_findingsOf resource source hkinds]

omit hkinds

/-- For a tree of any built-in language, extraction from a source that the callees of all calls fit
meets no fault and gives the meaning of the file. -/
theorem extract_eq_meaning (hprofile : t.profile ∈ Language.builtins.map (·.profile))
    (hfit : ∀ id ∈ visibleNodes t, ∀ callee, calleeNode? t id = some callee →
      (t.text? callee source).isSome) :
    extract resource (some t) source = ⟨meaning resource t source, none⟩ :=
  extract_eq_of_kindsDisjoint resource source
    (Language.Profile.kindsDisjoint_of_mem_builtins hprofile) hfit

end Triples

/-- A function that calls itself. -/
theorem extract_recursive_function :
    let t : Tree :=
      ⟨"python", .python,
        #[⟨"module", none, 0, 12, 1, 1, none, false⟩,
          ⟨"function_definition", none, 0, 12, 1, 1, some 0, false⟩,
          ⟨"identifier", some "name", 4, 5, 1, 1, some 1, false⟩,
          ⟨"call", none, 9, 12, 1, 1, some 1, false⟩,
          ⟨"identifier", some "function", 9, 10, 1, 1, some 3, false⟩], by decide, _, rfl⟩
    let file := Resource.ofPath "/r" "a.py" .practice "python" .epoch
    t.profile ∈ Language.builtins.map (·.profile) ∧
    (∀ id ∈ visibleNodes t, ∀ callee, calleeNode? t id = some callee →
      (t.text? callee "def f(): f()").isSome) ∧
    extract file (some t) "def f(): f()" = ⟨meaning file t "def f(): f()", none⟩ := by
  intro t file
  have hprofile : t.profile ∈ Language.builtins.map (·.profile) := by decide
  -- All five nodes lie in the source, so the callees do.
  have hall : ∀ id < 5, (t.text? id "def f(): f()").isSome := by decide +kernel
  have hfit : ∀ id ∈ visibleNodes t, ∀ callee, calleeNode? t id = some callee →
      (t.text? callee "def f(): f()").isSome := by
    intro id _ callee hcallee
    obtain ⟨field, -, hchild⟩ := Option.bind_eq_some_iff.mp hcallee
    exact hall callee (Tree.lt_size_of_mem_children (Tree.mem_children_of_childByField? hchild))
  exact ⟨hprofile, hfit, extract_eq_meaning file "def f(): f()" hprofile hfit⟩

end CodeIndex.Graph
