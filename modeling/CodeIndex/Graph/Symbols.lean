import CodeIndex.Graph.Callee
import CodeIndex.Graph.Score
import CodeIndex.Imports.Basic
import CodeIndex.Language.Profile
/-!
# Symbols and the resolution of calls

The names that a file defines and imports, and what a callee means in view of them. A resolution
always has an answer: where nothing is known, the callee stands for itself with a low score.

Only the distinct targets of a name count, so the order in which names are declared is irrelevant.
-/

namespace CodeIndex.Graph

/-- The names that one file defines and imports. -/
structure SymbolTable where
  /-- Simple names with their qualified names. -/
  definitions : List (String × String)
  /-- Qualified types with the names of their methods. -/
  methods : List (String × String)
  /-- Local names with what they were imported as. -/
  bindings : List (String × String)
  wildcardImports : Nat
  deriving DecidableEq, Repr

/-- What a callee means. -/
structure Resolution where
  target : String
  score : Score
  deriving DecidableEq, Repr

namespace SymbolTable

/-! ### Declaring -/

/-- A file without any names. -/
def empty : SymbolTable := ⟨[], [], [], 0⟩

/-- A function or type. -/
def define (table : SymbolTable) (name qualified : String) : SymbolTable :=
  { table with definitions := (name, qualified) :: table.definitions }

/-- A method of a type. -/
def defineMethod (table : SymbolTable) (owner name : String) : SymbolTable :=
  { table with methods := (owner, name) :: table.methods }

/-- An import. -/
def addImport (table : SymbolTable) (i : Import) : SymbolTable :=
  { table with
    bindings := (i.bindings.map fun b => (b.localName, b.qualified)) ++ table.bindings
    wildcardImports := table.wildcardImports + if i.wildcard then 1 else 0 }

/-! ### Looking up -/

/-- What a list of pairs has for a name. -/
def targets (pairs : List (String × String)) (name : String) : List String :=
  (pairs.filter fun pair => pair.1 == name).map (·.2)

/-- The distinct qualified names of what is defined under a name. -/
def definitionsOf (table : SymbolTable) (name : String) : List String :=
  (targets table.definitions name).eraseDups

/-- The distinct targets that a local name is bound to. -/
def bindingsOf (table : SymbolTable) (name : String) : List String :=
  (targets table.bindings name).eraseDups

/-- The distinct meanings of a plain name. -/
def candidates (table : SymbolTable) (name : String) : List String :=
  (targets table.definitions name ++ targets table.bindings name).eraseDups

/-- How often a type declares a method of a name. -/
def methodCount (table : SymbolTable) (owner name : String) : Nat :=
  table.methods.count (owner, name)

/-! ### Resolving -/

/-- The meaning of a plain name. -/
def resolvePlain (table : SymbolTable) (name : String) : Resolution :=
  match table.candidates name with
  | [only] => ⟨only, .exact⟩
  | [] =>
    if 0 < table.wildcardImports then ⟨name, .fromWildcards table.wildcardImports⟩
    else ⟨name, .unresolved⟩
  | several => ⟨name, .oneOf several.length⟩

/-- The meaning of a member of something that is not imported. -/
def resolveUnknownReceiver (table : SymbolTable) (callee member : String) : Resolution :=
  match table.definitionsOf member with
  | [only] => ⟨only, .uniqueMember⟩
  | _ => ⟨callee, .dynamic⟩

/-- The meaning of a member of a receiver, read through the imports. -/
def resolveReceiver (table : SymbolTable) (callee receiver member : String) : Resolution :=
  let root := receiverRoot receiver
  match table.bindingsOf root with
  | [] => table.resolveUnknownReceiver callee member
  | [only] =>
    ⟨only ++ String.ofList (callee.toList.drop root.length), .importedReceiver⟩
  | several => ⟨callee, .memberOfOneOf several.length⟩

/-- The meaning of a callee in a type, or outside every type. -/
def resolve (table : SymbolTable) (profile : Language.Profile) (callee : String)
    (enclosing : Option String) : Resolution :=
  match splitCallee? callee with
  | none => table.resolvePlain callee
  | some (receiver, member) =>
    match enclosing with
    | some owner =>
      if profile.selfReceivers.contains receiver && table.methodCount owner member == 1 then
        ⟨owner ++ profile.separator ++ member, .selfMethod⟩
      else
        table.resolveReceiver callee receiver member
    | none => table.resolveReceiver callee receiver member

end SymbolTable

end CodeIndex.Graph
