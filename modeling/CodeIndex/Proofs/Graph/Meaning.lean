import CodeIndex.Proofs.Graph.Order
import CodeIndex.Proofs.Syntax.Ancestors
/-!
# What the relationships of a file mean

The relationships of a file without a walk: every node gives them by what it is and by its ancestors
alone. A node counts unless an import is among its ancestors (`visibleNodes`); a definition is named
by the names of the definitions around it (`qualifiedName?`); a call is made by the nearest function
around it, and what it calls is read from the symbols of the whole file (`fileSymbols`).

`meaning` puts the triples of all nodes in the order of lines. What only some of the nodes mean, as
if there were no others, is `meaningAmong`.
-/

namespace CodeIndex.Graph

open CodeIndex.Syntax

section Nodes

variable (t : Tree) (source : String)

/-! ### Nodes and their names -/

/-- The nodes of the tree that do not stand strictly inside an import, in pre-order. -/
def visibleNodes : List Nat :=
  (t.descendants Tree.root).filter fun id =>
    (t.ancestors id).all fun a => !t.profile.isImport (t.kind a)

/-- The named functions, types and containers around a node, the nearest first. -/
def enclosing (id : Nat) : List Nat :=
  (t.ancestors id).filter fun a => (definedName? t source a).isSome

/-- The name of a named definition behind the names of those around it. -/
def qualifiedName? (id : Nat) : Option String :=
  (definedName? t source id).map fun name =>
    t.profile.separator.intercalate
      ((enclosing t source id).reverse.filterMap (definedName? t source) ++ [name])

/-- The nearest named function around a node. -/
def nearestFunction? (id : Nat) : Option Nat :=
  (enclosing t source id).find? fun a => t.profile.isFunction (t.kind a)

/-- The nearest named type or container around a node. -/
def nearestType? (id : Nat) : Option Nat :=
  (enclosing t source id).find? fun a => isTypeLike t a

/-! ### What a node gives -/

/-- The imports of an import node. -/
def importsAt (id : Nat) : List Import :=
  if t.profile.isImport (t.kind id) then Imports.read t source id else []

/-- The definition at a node: its simple and its qualified name. -/
def definition? (id : Nat) : Option (String × String) := do
  some (← definedName? t source id, ← qualifiedName? t source id)

/-- A named function right inside a type or container: the name of that, and its own. -/
def method? (id : Nat) : Option (String × String) := do
  let name ← if t.profile.isFunction (t.kind id) then definedName? t source id else none
  let owner ← (enclosing t source id).head?
  if isTypeLike t owner then some (← qualifiedName? t source owner, name) else none

/-- The callee of a call node: its text without white space, unless that is empty, longer than 256
octets or holds a brace. -/
def callee? (id : Nat) : Option String := do
  let text ← t.text? (← calleeNode? t id) source
  let callee := String.ofList (text.toList.filter fun c => !Text.isSpace c)
  if callee = "" ∨ 256 < callee.utf8ByteSize ∨ '\x7b' ∈ callee.toList then none else some callee

/-! ### The symbols of a file -/

/-- Everything that the visible nodes define and import, the last first. -/
def fileSymbols : SymbolTable where
  definitions := ((visibleNodes t).filterMap (definition? t source)).reverse
  methods := ((visibleNodes t).filterMap (method? t source)).reverse
  bindings := ((visibleNodes t).flatMap (importsAt t source)).reverse.flatMap fun i =>
    i.bindings.map fun b => (b.localName, b.qualified)
  wildcardImports := ((visibleNodes t).flatMap (importsAt t source)).countP (·.wildcard)

end Nodes

section Triples

variable (resource : Resource) (t : Tree) (source : String)

/-! ### Triples -/

/-- What an import says of the file. -/
def importTriple (i : Import) : Triple :=
  ⟨resource.id, resource.relativePath, .imports, i.modulePath, resource.relativePath, i.modulePath,
    i.line, Score.exact.confidence⟩

/-- What a named type says of the file. -/
def definesTriple? (id : Nat) : Option Triple := do
  let (name, qualified) ←
    if t.profile.isType (t.kind id) then definition? t source id else none
  some ⟨resource.id, resource.relativePath, .defines, name, resource.relativePath, qualified,
    (t.node id).startLine, Score.exact.confidence⟩

/-- What a call says of the function around it, or of the file outside every function. -/
def callsTriple? (id : Nat) : Option Triple := do
  let callee ← callee? t source id
  let subject := (nearestFunction? t source id).bind (qualifiedName? t source)
  let owner := (nearestType? t source id).bind (qualifiedName? t source)
  let resolution := (fileSymbols t source).resolve t.profile callee owner
  some ⟨resource.id, subject.getD resource.relativePath, .calls, callee, resource.relativePath,
    resolution.target, (t.node id).startLine, resolution.score.confidence⟩

/-- The imports and types of a file, then its calls, both in pre-order. -/
def statements : List Triple :=
  ((visibleNodes t).flatMap fun id =>
    (importsAt t source id).map (importTriple resource) ++
      (definesTriple? resource t source id).toList) ++
    (visibleNodes t).filterMap (callsTriple? resource t source)

/-- The statements of a file line by line, the first of each identity. -/
def meaning : List Triple :=
  (byKey (·.line) (statements resource t source)).eraseDupsBy fun a b => a.id == b.id

end Triples

section Among

variable (resource : Resource) (t : Tree) (source : String) (nodes : List Nat)

/-! ### Some of the nodes -/

/-- Everything that some nodes define and import, the last first. -/
def symbolsAmong : SymbolTable where
  definitions := (nodes.filterMap (definition? t source)).reverse
  methods := (nodes.filterMap (method? t source)).reverse
  bindings := (nodes.flatMap (importsAt t source)).reverse.flatMap fun i =>
    i.bindings.map fun b => (b.localName, b.qualified)
  wildcardImports := (nodes.flatMap (importsAt t source)).countP (·.wildcard)

/-- What a call says when nothing is known but the symbols of some nodes. -/
def callsTripleAmong? (id : Nat) : Option Triple := do
  let callee ← callee? t source id
  let subject := (nearestFunction? t source id).bind (qualifiedName? t source)
  let owner := (nearestType? t source id).bind (qualifiedName? t source)
  let resolution := (symbolsAmong t source nodes).resolve t.profile callee owner
  some ⟨resource.id, subject.getD resource.relativePath, .calls, callee, resource.relativePath,
    resolution.target, (t.node id).startLine, resolution.score.confidence⟩

/-- The imports and types of some nodes, then their calls. -/
def statementsAmong : List Triple :=
  (nodes.flatMap fun id =>
    (importsAt t source id).map (importTriple resource) ++
      (definesTriple? resource t source id).toList) ++
    nodes.filterMap (callsTripleAmong? resource t source nodes)

/-- The statements of some nodes line by line, the first of each identity. -/
def meaningAmong : List Triple :=
  (byKey (·.line) (statementsAmong resource t source nodes)).eraseDupsBy fun a b => a.id == b.id

/-- A file means what its visible nodes mean. -/
theorem meaning_eq_among :
    meaning resource t source = meaningAmong resource t source (visibleNodes t) :=
  rfl

end Among

end CodeIndex.Graph
