/-!
# Language profiles

A profile tells which kinds of syntax nodes are functions, types, containers, imports and calls in
one grammar. The rest of the library works from profiles alone and never asks which language it has
before it, so a further language is a further profile.
-/

namespace CodeIndex.Language

/-- How the import nodes of a grammar are laid out. -/
inductive ImportStyle where
  | rust
  | python
  | ecmascript
  | go
  deriving DecidableEq, Repr

/-- The kinds of nodes of one grammar, by what they mean. -/
structure Profile where
  /-- Definitions of functions and methods. -/
  functionKinds : List String
  /-- Definitions of types. -/
  typeKinds : List String
  /-- Blocks that group functions without being a type. -/
  containerKinds : List String
  /-- Nodes around a definition, each with the field that holds the definition. -/
  wrapperKinds : List (String × String)
  /-- The fields that name a definition, the first that is present counts. -/
  nameFields : List String
  /-- Nodes right above a definition that belong to it. -/
  leadingKinds : List String
  importKinds : List String
  /-- Calls, each with the field that holds what is called. -/
  callKinds : List (String × String)
  /-- Stands between the names of nested definitions. -/
  separator : String
  /-- Receivers that mean the type around the call. -/
  selfReceivers : List String
  importStyle : ImportStyle
  deriving DecidableEq, Repr

namespace Profile

/-- Nodes of this kind define a function. -/
def isFunction (p : Profile) (kind : String) : Bool := p.functionKinds.contains kind

/-- Nodes of this kind define a type. -/
def isType (p : Profile) (kind : String) : Bool := p.typeKinds.contains kind

/-- Nodes of this kind group functions. -/
def isContainer (p : Profile) (kind : String) : Bool := p.containerKinds.contains kind

/-- Nodes of this kind import something. -/
def isImport (p : Profile) (kind : String) : Bool := p.importKinds.contains kind

/-- Nodes of this kind belong to the definition below them. -/
def isLeading (p : Profile) (kind : String) : Bool := p.leadingKinds.contains kind

/-- The field of a wrapper that holds the definition. -/
def wrappedField? (p : Profile) (kind : String) : Option String := p.wrapperKinds.lookup kind

/-- The field of a call that holds what is called. -/
def calleeField? (p : Profile) (kind : String) : Option String := p.callKinds.lookup kind

/-! ### The built-in profiles -/

/-- The profile of Rust. -/
def rust : Profile where
  functionKinds := ["function_item", "function_signature_item"]
  typeKinds := ["struct_item", "enum_item", "trait_item", "union_item", "type_item"]
  containerKinds := ["impl_item", "mod_item"]
  wrapperKinds := []
  nameFields := ["name", "type"]
  leadingKinds := ["line_comment", "block_comment", "attribute_item"]
  importKinds := ["use_declaration"]
  callKinds := [("call_expression", "function")]
  separator := "::"
  selfReceivers := ["self", "Self"]
  importStyle := .rust

/-- The profile of Python. -/
def python : Profile where
  functionKinds := ["function_definition"]
  typeKinds := ["class_definition"]
  containerKinds := []
  wrapperKinds := [("decorated_definition", "definition")]
  nameFields := ["name"]
  leadingKinds := ["comment"]
  importKinds := ["import_statement", "import_from_statement"]
  callKinds := [("call", "function")]
  separator := "."
  selfReceivers := ["self", "cls"]
  importStyle := .python

/-- The profile of JavaScript and TypeScript. The declarations that only TypeScript has do no harm
in JavaScript, where they never occur. -/
def ecmascript : Profile where
  functionKinds := ["function_declaration", "generator_function_declaration", "method_definition"]
  typeKinds :=
    ["class_declaration", "class", "abstract_class_declaration", "interface_declaration",
      "type_alias_declaration", "enum_declaration"]
  containerKinds := []
  wrapperKinds := [("export_statement", "declaration")]
  nameFields := ["name"]
  leadingKinds := ["comment"]
  importKinds := ["import_statement"]
  callKinds := [("call_expression", "function"), ("new_expression", "constructor")]
  separator := "."
  selfReceivers := ["this"]
  importStyle := .ecmascript

/-- The profile of Go. The name of a type stands on its specification, not on the declaration. -/
def go : Profile where
  functionKinds := ["function_declaration", "method_declaration"]
  typeKinds := ["type_spec"]
  containerKinds := []
  wrapperKinds := []
  nameFields := ["name"]
  leadingKinds := ["comment"]
  importKinds := ["import_spec"]
  callKinds := [("call_expression", "function")]
  separator := "."
  selfReceivers := []
  importStyle := .go

end Profile

/-! ### The built-in languages -/

/-- A language with a grammar: its name, the extensions of its files and its profile. -/
structure Builtin where
  name : String
  extensions : List String
  profile : Profile

/-- Every language with a grammar. -/
def builtins : List Builtin :=
  [ ⟨"rust", ["rs"], .rust⟩,
    ⟨"python", ["py", "pyi", "pyw"], .python⟩,
    ⟨"javascript", ["js", "mjs", "cjs", "jsx"], .ecmascript⟩,
    ⟨"typescript", ["ts", "mts", "cts"], .ecmascript⟩,
    ⟨"tsx", ["tsx"], .ecmascript⟩,
    ⟨"go", ["go"], .go⟩ ]

/-- The profile of a built-in language. -/
def profileOf? (name : String) : Option Profile :=
  (builtins.find? fun b => b.name == name).map (·.profile)

end CodeIndex.Language
