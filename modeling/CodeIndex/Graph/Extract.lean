import CodeIndex.Fault
import CodeIndex.Graph.Symbols
import CodeIndex.Imports.Reader
import CodeIndex.Resource
import CodeIndex.Syntax.Name
import CodeIndex.Triple
/-!
# Extracting relationships

The relationships in a file: what it imports, which types it defines and what it calls.

A tree is walked in pre-order; below an import node nothing is looked at. Every node that is
visited is seen in its scopes, the named definitions around it. From each visit come findings, and
the walk stops at the first callee whose text lies outside the source. Calls are resolved against
the findings of the whole walk, so a definition may follow the call. In the end the triples are
sorted by line, and of triples with one identity the first is kept.
-/

namespace CodeIndex.Graph

open CodeIndex.Syntax

/-! ### Scopes -/

/-- A named definition around a node. -/
structure Scope where
  /-- The definition is a function; otherwise it is a type or a container. -/
  isFunction : Bool
  qualified : String
  deriving DecidableEq, Repr

/-- The qualified name of a definition in its scopes, the innermost of which comes first. -/
def qualify (t : Tree) (scopes : List Scope) (name : String) : String :=
  match scopes with
  | [] => name
  | scope :: _ => scope.qualified ++ t.profile.separator ++ name

/-- The node defines a type or a container. -/
def isTypeLike (t : Tree) (id : Nat) : Bool :=
  t.profile.isType (t.kind id) || t.profile.isContainer (t.kind id)

/-- The name of a node that is a definition and has one. -/
def definedName? (t : Tree) (source : String) (id : Nat) : Option String :=
  if isTypeLike t id || t.profile.isFunction (t.kind id) then t.name? id source else none

/-- The scopes of what is below a node. -/
def scopesBelow (t : Tree) (source : String) (scopes : List Scope) (id : Nat) : List Scope :=
  match definedName? t source id with
  | none => scopes
  | some name => ⟨!isTypeLike t id, qualify t scopes name⟩ :: scopes

/-! ### Visits -/

/-- A node in its scopes. -/
structure Visit where
  node : Nat
  scopes : List Scope
  deriving DecidableEq, Repr

/-- The visits at and below a node, in pre-order. -/
def visitsAt (t : Tree) (source : String) (scopes : List Scope) (id : Nat) : List Visit :=
  let below :=
    if t.profile.isImport (t.kind id) then []
    else
      (t.children id).attach.flatMap fun ⟨c, _⟩ =>
        visitsAt t source (scopesBelow t source scopes id) c
  ⟨id, scopes⟩ :: below
termination_by t.nodes.size - id
decreasing_by
  rename_i h
  have := Tree.lt_of_mem_children h
  have := Tree.lt_size_of_mem_children h
  omega

/-- All visits of a tree. -/
def visits (t : Tree) (source : String) : List Visit :=
  visitsAt t source [] Tree.root

/-! ### Findings -/

/-- What a visit finds. -/
inductive Finding where
  | imported (i : Import)
  /-- A definition; `owner` is the type right around a function, and `line` is there for what gives
  a relationship of its own. -/
  | defined (name qualified : String) (owner : Option String) (line : Option Nat)
  | called (callee : String) (line : Nat) (scopes : List Scope)
  deriving DecidableEq, Repr

/-- The longest callee that counts as a name, in octets. -/
def maxCalleeSize : Nat := 256

/-- The callee in the text of a node: without white space, and only if it can be a name. -/
def calleeOfText? (text : String) : Option String :=
  let cs := text.toList.filter fun c => !Text.isSpace c
  let callee := String.ofList cs
  if cs.isEmpty || maxCalleeSize < callee.utf8ByteSize || cs.contains '\x7b' then none
  else some callee

/-- The type right around a function. -/
def ownerOf (scopes : List Scope) : Option String :=
  match scopes with
  | scope :: _ => if scope.isFunction then none else some scope.qualified
  | [] => none

/-- The definition at a visit. -/
def definitionOf (t : Tree) (visit : Visit) (name : String) : Finding :=
  let kind := t.kind visit.node
  .defined name (qualify t visit.scopes name)
    (if isTypeLike t visit.node then none else ownerOf visit.scopes)
    (if t.profile.isType kind then some (t.node visit.node).startLine else none)

/-- The node that holds the callee of a call. -/
def calleeNode? (t : Tree) (id : Nat) : Option Nat :=
  (t.profile.calleeField? (t.kind id)).bind fun field => t.childByField? id field

/-- What is found at a visit, unless it is a call whose callee lies outside the source. -/
def findingsAt (t : Tree) (source : String) (visit : Visit) :
    Except ExtractionFault (List Finding) :=
  let id := visit.node
  let kind := t.kind id
  if t.profile.isImport kind then
    .ok ((Imports.read t source id).map .imported)
  else if isTypeLike t id || t.profile.isFunction kind then
    .ok ((t.name? id source).map (definitionOf t visit)).toList
  else
    match calleeNode? t id with
    | none => .ok []
    | some callee =>
      match t.text? callee source with
      | none => .error (.outsideSource (t.kind callee) (t.node callee).startLine)
      | some text =>
        .ok ((calleeOfText? text).map
          fun callee => .called callee (t.node id).startLine visit.scopes).toList

/-- The findings of some visits up to the first fault. -/
def findings (t : Tree) (source : String) : List Visit → List Finding × Option ExtractionFault
  | [] => ([], none)
  | visit :: rest =>
    match findingsAt t source visit with
    | .error fault => ([], some fault)
    | .ok found =>
      let (more, fault?) := findings t source rest
      (found ++ more, fault?)

/-! ### Triples -/

/-- The symbols after one more finding. -/
def declare (table : SymbolTable) : Finding → SymbolTable
  | .imported i => table.addImport i
  | .defined name qualified owner _ =>
    -- A method can be called by its simple name as well.
    let table := table.define name qualified
    match owner with
    | some owner => table.defineMethod owner name
    | none => table
  | .called _ _ _ => table

/-- The symbols of all findings. -/
def symbolsOf (found : List Finding) : SymbolTable :=
  found.foldl declare .empty

/-- A triple of a resource. -/
def tripleOf (resource : Resource) (subject : String) (predicate : Predicate)
    (object target : String) (line : Nat) (score : Score) : Triple :=
  { resourceId := resource.id
    subject := subject
    predicate := predicate
    object := object
    sourceFile := resource.relativePath
    targetSymbol := target
    line := line
    confidence := score.confidence }

/-- The triple of a finding that needs no resolution. -/
def declarationTriple? (resource : Resource) : Finding → Option Triple
  | .imported i =>
    some (tripleOf resource resource.relativePath .imports i.modulePath i.modulePath i.line .exact)
  | .defined name qualified _ (some line) =>
    some (tripleOf resource resource.relativePath .defines name qualified line .exact)
  | _ => none

/-- The triple of a call, resolved against the symbols of the file. -/
def callTriple? (t : Tree) (resource : Resource) (table : SymbolTable) : Finding → Option Triple
  | .called callee line scopes =>
    let subject := (scopes.find? (·.isFunction)).map (·.qualified)
    let owner := (scopes.find? (!·.isFunction)).map (·.qualified)
    let resolution := table.resolve t.profile callee owner
    some (tripleOf resource (subject.getD resource.relativePath) .calls callee resolution.target
      line resolution.score)
  | _ => none

/-- The elements whose key is neither in `seen` nor that of an earlier element. -/
def distinctOn {α κ : Type} [BEq κ] (key : α → κ) (seen : List κ) : List α → List α
  | [] => []
  | x :: rest =>
    let k := key x
    if seen.contains k then distinctOn key seen rest else x :: distinctOn key (k :: seen) rest

/-- The triples of some findings: by line, and one of each identity. -/
def triplesOf (t : Tree) (resource : Resource) (found : List Finding) : List Triple :=
  let declared := found.filterMap (declarationTriple? resource)
  let called := found.filterMap (callTriple? t resource (symbolsOf found))
  distinctOn Triple.id [] ((declared ++ called).mergeSort fun a b => a.line ≤ b.line)

/-- The relationships of a file, and the fault that cut the walk short. -/
structure Extraction where
  triples : List Triple
  fault : Option ExtractionFault

/-- Extracts the relationships of a file. Without a tree there are none. -/
def extract (resource : Resource) (tree : Option Tree) (source : String) : Extraction :=
  match tree with
  | none => ⟨[], none⟩
  | some t =>
    let (found, fault?) := findings t source (visits t source)
    ⟨triplesOf t resource found, fault?⟩

end CodeIndex.Graph
