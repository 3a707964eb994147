import CodeIndex.Proofs.Graph.Visits
import CodeIndex.Proofs.Language.Kinds
/-!
# What the walk finds

At a visible node the walk finds the imports, the definition and the call that the node gives
(`findingsAt_scopesAt`); for this the kinds of nodes must not overlap, because the walk asks for one
after the other. The scopes of a visit tell of the ancestors what resolution needs
(`find?_scopesAt`), and what the findings declare one after the other are the symbols of the file
(`symbolsOf_eq`).
-/

namespace CodeIndex.Graph

open CodeIndex.Syntax

/-! ### Declaring findings -/

namespace Finding

/-- The import that a finding is. -/
def import? : Finding → Option Import
  | imported i => some i
  | _ => none

/-- The simple and qualified name of what a finding defines. -/
def definition? : Finding → Option (String × String)
  | defined name qualified _ _ => some (name, qualified)
  | _ => none

/-- The type and the name of the method that a finding defines. -/
def method? : Finding → Option (String × String)
  | defined name _ owner _ => owner.map fun owner => (owner, name)
  | _ => none

end Finding

/-- What some imports bind. -/
def bindingsOf (imports : List Import) : List (String × String) :=
  imports.flatMap fun i => i.bindings.map fun b => (b.localName, b.qualified)

/-- Findings are put before what was declared already, the last of them first. -/
theorem foldl_declare (found : List Finding) (table : SymbolTable) :
    found.foldl declare table =
      { definitions := (found.filterMap Finding.definition?).reverse ++ table.definitions
        methods := (found.filterMap Finding.method?).reverse ++ table.methods
        bindings := bindingsOf (found.filterMap Finding.import?).reverse ++ table.bindings
        wildcardImports :=
          table.wildcardImports + (found.filterMap Finding.import?).countP (·.wildcard) } := by
  induction found generalizing table with
  | nil => rfl
  | cons finding rest ih =>
    rw [List.foldl_cons, ih]
    cases finding with
    | imported i =>
      cases hwildcard : i.wildcard <;>
        simp [declare, SymbolTable.addImport, List.filterMap_cons, Finding.definition?,
          Finding.method?, Finding.import?, bindingsOf, hwildcard]
      omega
    | defined name qualified owner line =>
      cases owner <;>
        simp [declare, SymbolTable.define, SymbolTable.defineMethod, List.filterMap_cons,
          Finding.definition?, Finding.method?, Finding.import?]
    | called callee line scopes =>
      simp [declare, List.filterMap_cons, Finding.definition?, Finding.method?, Finding.import?]

theorem symbolsOf_eq (found : List Finding) :
    symbolsOf found =
      { definitions := (found.filterMap Finding.definition?).reverse
        methods := (found.filterMap Finding.method?).reverse
        bindings := bindingsOf (found.filterMap Finding.import?).reverse
        wildcardImports := (found.filterMap Finding.import?).countP (·.wildcard) } := by
  rw [symbolsOf, foldl_declare]
  simp [SymbolTable.empty]

section Nodes

variable (t : Tree) (source : String)

/-! ### Scopes of a visit -/

theorem isSome_qualifiedName? (id : Nat) :
    (qualifiedName? t source id).isSome = (definedName? t source id).isSome := by
  rw [qualifiedName?, Option.isSome_map]

theorem scopesAt_eq (id : Nat) :
    scopesAt t source id = (enclosing t source id).filterMap (scopeOf? t source) := by
  rw [scopesAt, enclosing, List.filterMap_filter]
  congr 1
  funext a
  by_cases hname : (definedName? t source a).isSome
  · rw [if_pos hname]
  · have hnone : qualifiedName? t source a = none := by
      rw [← Option.not_isSome_iff_eq_none, isSome_qualifiedName?]
      exact hname
    rw [if_neg hname, scopeOf?, hnone, Option.map_none]

/-- A scope looked for by what it is gives the qualified name of the nearest such definition. -/
theorem find?_scopesAt (p : Bool → Bool) (id : Nat) :
    ((scopesAt t source id).find? fun scope => p scope.isFunction).map (·.qualified)
      = ((enclosing t source id).find? fun a => p (!isTypeLike t a)).bind
          (qualifiedName? t source) := by
  have hfind : (fun a => (scopeOf? t source a).any fun scope => p scope.isFunction)
      = fun a => (definedName? t source a).isSome && p (!isTypeLike t a) := by
    funext a
    rw [← isSome_qualifiedName?, scopeOf?]
    cases qualifiedName? t source a <;> rfl
  have hqualified : (fun a => (scopeOf? t source a).map (·.qualified))
      = qualifiedName? t source := by
    funext a
    rw [scopeOf?, Option.map_map]
    exact Option.map_id'
  rw [scopesAt, enclosing, List.find?_filterMap, List.find?_filter, Option.map_bind, hfind]
  simp only [Bool.decide_and, Bool.decide_eq_true]
  rw [← hqualified]
  rfl

theorem ownerOf_scopesAt (id : Nat) :
    ownerOf (scopesAt t source id)
      = ((enclosing t source id).head?.filter (isTypeLike t)).bind (qualifiedName? t source) := by
  rw [scopesAt_eq]
  cases henclosing : enclosing t source id with
  | nil => rfl
  | cons a rest =>
    -- The nearest definition has a name, so it opens the innermost scope.
    have hname : (definedName? t source a).isSome := by
      have ha : a ∈ enclosing t source id := by simp [henclosing]
      exact (List.mem_filter.mp ha).2
    rw [← isSome_qualifiedName?] at hname
    obtain ⟨qualified, hqualified⟩ := Option.isSome_iff_exists.mp hname
    have hscope : scopeOf? t source a = some ⟨!isTypeLike t a, qualified⟩ := by
      rw [scopeOf?, hqualified, Option.map_some]
    rw [List.filterMap_cons_some hscope]
    cases htype : isTypeLike t a <;> simp [ownerOf, Option.filter, htype, hqualified]

/-! ### Findings of a node -/

/-- The definition of a node as a finding. -/
def defined? (id : Nat) : Option Finding :=
  (definition? t source id).map fun (name, qualified) =>
    .defined name qualified ((method? t source id).map (·.1))
      (if t.profile.isType (t.kind id) then some (t.node id).startLine else none)

/-- The call of a node as a finding. -/
def called? (id : Nat) : Option Finding :=
  (callee? t source id).map fun callee =>
    .called callee (t.node id).startLine (scopesAt t source id)

/-- What a node gives. -/
def findingsOf (id : Nat) : List Finding :=
  (importsAt t source id).map .imported ++ (defined? t source id).toList ++
    (called? t source id).toList

theorem callee?_eq {id callee : Nat} {text : String} (hcallee : calleeNode? t id = some callee)
    (htext : t.text? callee source = some text) : callee? t source id = calleeOfText? text := by
  rw [callee?, hcallee]
  simp only [Option.bind_eq_bind, Option.bind_some, htext, calleeOfText?, Bool.or_eq_true,
    List.isEmpty_iff, decide_eq_true_eq, or_assoc, List.contains_iff_mem,
    String.ofList_eq_empty_iff, String.toList_ofList]
  rfl

theorem definition?_eq_none {id : Nat} (h : definedName? t source id = none) :
    definition? t source id = none := by
  rw [definition?, h]
  rfl

/-- What a definition is named follows from its simple name and its scopes. -/
theorem definition?_eq (id : Nat) :
    definition? t source id
      = (definedName? t source id).map fun name =>
          (name, qualify t (scopesAt t source id) name) := by
  rw [definition?, ← map_qualify_scopesAt]
  cases definedName? t source id <;> rfl

/-- The owner of a method is the type or container right around it. -/
theorem map_fst_method? {id : Nat} {name : String} (hname : definedName? t source id = some name) :
    (method? t source id).map (·.1)
      = if t.profile.isFunction (t.kind id) then ownerOf (scopesAt t source id) else none := by
  rw [method?, ownerOf_scopesAt]
  cases hfunction : t.profile.isFunction (t.kind id) with
  | false => rfl
  | true =>
    rw [if_pos rfl, if_pos rfl, hname]
    cases henclosing : (enclosing t source id).head? with
    | none => rfl
    | some owner =>
      cases htype : isTypeLike t owner with
      | false => simp [htype, Option.filter]
      | true =>
        simp only [htype, Option.filter, if_true, Option.bind_eq_bind, Option.bind_some]
        cases qualifiedName? t source owner <;> rfl

/-! ### One kind at a time -/

variable {t} (hkinds : t.profile.KindsDisjoint)

theorem definedName?_eq_none {id : Nat} (htype : isTypeLike t id = false)
    (hfunction : t.profile.isFunction (t.kind id) = false) : definedName? t source id = none := by
  rw [definedName?, htype, hfunction]
  rfl

theorem callee?_eq_none {id : Nat} (h : t.profile.calleeField? (t.kind id) = none) :
    callee? t source id = none := by
  rw [callee?, calleeNode?, h]
  rfl

include hkinds

theorem findingsOf_of_isImport {id : Nat} (h : t.profile.isImport (t.kind id) = true) :
    findingsOf t source id = (Imports.read t source id).map .imported := by
  obtain ⟨hfunction, htype, hcontainer, hcallee⟩ := hkinds.of_isImport h
  have hname : definedName? t source id = none := by
    refine definedName?_eq_none source ?_ hfunction
    rw [isTypeLike, htype, hcontainer]
    rfl
  rw [findingsOf, importsAt, if_pos h, defined?, definition?_eq_none t source hname, called?,
    callee?_eq_none source hcallee]
  simp

/-- A function is no type, so the owner is asked for in the scopes of functions alone. -/
theorem defined?_eq (id : Nat) :
    defined? t source id
      = (definedName? t source id).map (definitionOf t ⟨id, scopesAt t source id⟩) := by
  rw [defined?, definition?_eq]
  cases hname : definedName? t source id with
  | none => rfl
  | some name =>
    have howner : (method? t source id).map (·.1)
        = if isTypeLike t id then none else ownerOf (scopesAt t source id) := by
      rw [map_fst_method? t source hname]
      cases hfunction : t.profile.isFunction (t.kind id) with
      | true =>
        obtain ⟨htype, hcontainer, -⟩ := hkinds.of_isFunction hfunction
        have hnot : isTypeLike t id = false := by rw [isTypeLike, htype, hcontainer]; rfl
        rw [hnot]
        rfl
      | false =>
        -- Something that has a name and is no function is a type or a container.
        cases htype : isTypeLike t id with
        | true => rfl
        | false => simp [definedName?_eq_none source htype hfunction] at hname
    rw [howner]
    rfl

theorem findingsOf_of_isDefinition {id : Nat}
    (h : (isTypeLike t id || t.profile.isFunction (t.kind id)) = true) :
    findingsOf t source id
      = ((t.name? id source).map (definitionOf t ⟨id, scopesAt t source id⟩)).toList := by
  have himport : ¬ t.profile.isImport (t.kind id) = true := by
    intro himport
    obtain ⟨hfunction, htype, hcontainer, -⟩ := hkinds.of_isImport himport
    simp [isTypeLike, hfunction, htype, hcontainer] at h
  have hcallee : t.profile.calleeField? (t.kind id) = none := by
    rcases Bool.or_eq_true _ _ ▸ h with htype | hfunction
    · exact hkinds.calleeField?_of_isType htype
    · exact (hkinds.of_isFunction hfunction).2.2
  rw [findingsOf, importsAt, if_neg himport, defined?_eq source hkinds, definedName?, if_pos h,
    called?, callee?_eq_none source hcallee]
  simp

/-- The walk finds at a node what the node gives, when the text of its callee fits the source. -/
theorem findingsAt_scopesAt {id : Nat}
    (hfit : ∀ callee, calleeNode? t id = some callee → (t.text? callee source).isSome) :
    findingsAt t source ⟨id, scopesAt t source id⟩ = .ok (findingsOf t source id) := by
  rw [findingsAt]
  by_cases himport : t.profile.isImport (t.kind id) = true
  · rw [if_pos himport, findingsOf_of_isImport source hkinds himport]
  rw [if_neg himport]
  by_cases hdefinition : (isTypeLike t id || t.profile.isFunction (t.kind id)) = true
  · rw [if_pos hdefinition, findingsOf_of_isDefinition source hkinds hdefinition]
  rw [if_neg hdefinition]
  have hcalled : findingsOf t source id = (called? t source id).toList := by
    rw [findingsOf, importsAt, if_neg himport, defined?_eq source hkinds, definedName?,
      if_neg hdefinition]
    simp
  rw [hcalled, called?]
  cases hcallee : calleeNode? t id with
  | none =>
    rw [callee?, hcallee]
    rfl
  | some callee =>
    obtain ⟨text, htext⟩ := Option.isSome_iff_exists.mp (hfit callee hcallee)
    rw [callee?_eq t source hcallee htext]
    simp only [htext]

omit hkinds

end Nodes

end CodeIndex.Graph
