import CodeIndex.Config.Basic
import CodeIndex.FileTree.Resolve
import CodeIndex.Ignore.Rules
import CodeIndex.Source.Binary
/-!
# Searching a directory

The files of a directory that are worth ingesting, in the order of their paths. The walk goes into
every directory that is neither excluded by name, nor hidden, nor ignored; a link is neither
followed nor taken. Of the files that the walk meets, those are left out that are too large or
binary.

`visits` is the condition for a single entry, `walk` the walk with nothing but that condition, and
`Found.isEligible` the condition on a file.
-/

namespace CodeIndex.Source

open CodeIndex.Ignore

/-! ### Entries -/

/-- A file that the walk met. -/
structure Found where
  /-- The components of its path below the root of the search. -/
  place : List String
  content : List UInt8

namespace Found

/-- The path of the file below the root of the search. -/
def path (f : Found) : String := String.intercalate "/" f.place

/-- The size of the file in bytes. -/
def size (f : Found) : Nat := f.content.length

/-- The file is small enough and a text. -/
def isEligible (options : Config.Source) (f : Found) : Bool :=
  f.size ≤ options.maxFileBytes && !hasBinaryExtension f.path && !looksBinary f.content

end Found

/-- The entry is hidden by its name. -/
def isHidden (name : String) : Bool := name.toList.head? == some '.'

/-- The walk visits an entry. An exception in an ignore file shows hidden entries as well, but no
directory that is excluded by name. -/
def visits (options : Config.Source) (layers : List Layer) (place : List String) (name : String)
    (isDirectory : Bool) : Bool :=
  let shown :=
    match judge? layers (place ++ [name]) isDirectory with
    | some .ignored => false
    | some .excepted => true
    | none => !(options.excludeHidden && isHidden name)
  shown && !(isDirectory && options.excludeDirs.contains name)

/-! ### The walk -/

/-- The ignore files of a directory at a place. -/
abbrev LayerAt := List String → Layer

/-- The files that the walk meets among the entries of the directory at `place`. -/
def walk (options : Config.Source) (layerAt : LayerAt) (layers : List Layer)
    (place : List String) : Directory → List Found
  | .empty => []
  | .file name content rest =>
    (if visits options layers place name false then [⟨place ++ [name], content⟩] else []) ++
      walk options layerAt layers place rest
  | .link _ _ rest => walk options layerAt layers place rest
  | .inside name entries rest =>
    (if visits options layers place name true then
      let inner := place ++ [name]
      walk options layerAt (layerAt inner :: layers) inner entries
    else []) ++ walk options layerAt layers place rest

/-- Files in the order of their paths. -/
def byPath (files : List Found) : List Found :=
  files.mergeSort fun a b => !decide (b.path < a.path)

/-- The eligible files of a directory. -/
def scanEntries (options : Config.Source) (layerAt : LayerAt) (entries : Directory) : List Found :=
  byPath ((walk options layerAt [layerAt []] [] entries).filter (Found.isEligible options))

/-! ### Searching a tree -/

/-- The ignore files of the directory at a place below `root`. -/
def layerIn (world : Directory) (root : List String) : LayerAt := fun place =>
  let rules (name : String) : List Rule :=
    match world.contentOf (Directory.pathOf (root ++ place ++ [name])) with
    | .ok bytes => rulesOf bytes
    | .error _ => []
  { place := place
    general := rules ".ignore"
    versioned := rules ".gitignore"
    excluded := rules ".git/info/exclude" }

/-- The eligible files below a path. -/
def scan (options : Config.Source) (world : Directory) (path : String) :
    Except IoFault (List Found) :=
  match world.resolve path with
  | .error cause => .error cause
  | .ok (root, .directory entries) => .ok (scanEntries options (layerIn world root) entries)
  | .ok _ => .error .notADirectory

end CodeIndex.Source
