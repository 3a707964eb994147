import CodeIndex.Fault
import CodeIndex.Keyed
import CodeIndex.Path
import CodeIndex.Syntax.Tree
import CodeIndex.Text.Lowercase
/-!
# Parsers and the registry

A parser turns a text into a syntax tree or a fault. A factory makes parsers for one language, and
the registry knows a factory for each language and a language for each extension.

Factories and extensions are kept apart: a language that is registered again replaces its factory
and takes further extensions, and it keeps those it had until another language takes them.
-/

namespace CodeIndex.Language

open CodeIndex.Keyed

/-- Parses a text. -/
abbrev Parser := String → Except Fault Syntax.Tree

/-- Makes parsers for one language. -/
structure Factory where
  language : String
  extensions : List String
  create : Except Fault Parser

/-- The registered languages and extensions. -/
structure Registry where
  /-- The latest factory of every language. -/
  factories : List Factory
  /-- Every extension in lower case, with the language that took it last. -/
  routes : List (String × String)

namespace Registry

/-- A registry without any language. -/
def empty : Registry := ⟨[], []⟩

/-- The routes with some more extensions for a language. -/
def addRoutes (routes : List (String × String)) (language : String) (extensions : List String) :
    List (String × String) :=
  extensions.foldl (fun routes ext => put Prod.fst (Text.asciiLowercase ext, language) routes) routes

/-- Adds a language, or replaces it, and gives it the extensions it claims. -/
def register (r : Registry) (f : Factory) : Registry where
  factories := put Factory.language f r.factories
  routes := addRoutes r.routes f.language f.extensions

/-- A registry of the built-in languages, given the grammar of each. -/
def builtin (grammar : String → Parser) : Registry :=
  builtins.foldl (fun r b => r.register ⟨b.name, b.extensions, .ok (grammar b.name)⟩) empty

/-- The language that has an extension, which is in lower case. -/
def languageOf? (r : Registry) (extension : String) : Option String :=
  (lookUp Prod.fst extension r.routes).map (·.2)

/-- The language of the files with the path's extension, in any ASCII case. -/
def languageForPath? (r : Registry) (path : String) : Option String :=
  (Path.extension? path).bind fun ext => r.languageOf? (Text.asciiLowercase ext)

/-- The factory of a language. -/
def factory? (r : Registry) (language : String) : Option Factory :=
  lookUp Factory.language language r.factories

/-- The language has a factory. -/
def supports (r : Registry) (language : String) : Bool :=
  (r.factory? language).isSome

/-- Texts in ascending order. -/
def sorted (names : List String) : List String :=
  names.mergeSort fun a b => !decide (b < a)

/-- The registered languages in ascending order. -/
def languages (r : Registry) : List String :=
  sorted (r.factories.map (·.language))

/-- The extensions of a language in ascending order. -/
def extensionsFor (r : Registry) (language : String) : List String :=
  sorted ((r.routes.filter fun route => route.2 == language).map (·.1))

/-- A fresh parser for a language; `none` when no factory is registered for it. -/
def parser? (r : Registry) (language : String) : Except Fault (Option Parser) :=
  match r.factory? language with
  | none => .ok none
  | some f => f.create.map some

end Registry

end CodeIndex.Language
