import CodeIndex.Fault
import CodeIndex.FileTree.Basic
import CodeIndex.Path
import CodeIndex.Text.Split
import CodeIndex.Text.Utf8
/-!
# Resolving paths

From a path to the place it leads to, once every link on the way is followed and every `..` is
taken. Absolute paths begin at the root of the tree. A path with a slash at its end has to lead to a
directory.

The number of links followed is bounded, so that links in a circle are a refusal and not a loop.
-/

namespace CodeIndex.Directory

open CodeIndex.Text

/-- The steps of a path. A slash at the end is a step that stays, and so needs a directory. -/
def steps (path : String) : List String :=
  let parts := (splitChar '/' path.toList).map String.ofList
  parts.filter (· != "") ++ if parts.getLast? == some "" then ["."] else []

/-- The most links that one path may follow. -/
def maxLinks : Nat := 40

/-- Takes the steps `pending` from `place`, a place reached without links. -/
def resolveFrom (d : Directory) (links : Nat) (place pending : List String) :
    Except IoFault (List String × Node) :=
  match pending with
  | [] =>
    match d.at? place with
    | some node => .ok (place, node)
    | none => .error .notFound
  | step :: pending =>
    match d.at? place with
    | some (.directory here) =>
      if step = "." then resolveFrom d links place pending
      else if step = ".." then resolveFrom d links place.dropLast pending
      else
        match here.get? step, links with
        | none, _ => .error .notFound
        | some (.link _), 0 => .error .tooManyLinks
        | some (.link target), links + 1 =>
          if target = "" then .error .notFound
          else
            resolveFrom d links (if target.toList.head? == some '/' then [] else place)
              (steps target ++ pending)
        | some _, links => resolveFrom d links (place ++ [step]) pending
    | _ => .error .notADirectory
termination_by (links, pending.length)

/-- The place that an absolute path leads to, and what stands there. -/
def resolve (d : Directory) (path : String) : Except IoFault (List String × Node) :=
  if path = "" then .error .notFound else resolveFrom d maxLinks [] (steps path)

/-- The place that a path leads to from a working directory, and what stands there. -/
def resolveAt (d : Directory) (workingDirectory path : String) :
    Except IoFault (List String × Node) :=
  if path = "" then .error .notFound else d.resolve (Path.join workingDirectory path)

/-- The path of a place. -/
def pathOf (place : List String) : String :=
  "/" ++ String.intercalate "/" place

/-- The directory at a path can be used or made: of what stands on the way to it, the last is a
directory. -/
def admitsDirectory (d : Directory) (workingDirectory path : String) : Except IoFault Unit :=
  let steps := Path.components path
  let fronts := (List.range (steps.length + 1)).reverse.map fun n =>
    Path.ofComponents (steps.take n)
  let verdict? (path : String) : Option (Except IoFault Unit) :=
    match d.resolveAt workingDirectory path with
    | .error .notFound => none
    | .error cause => some (.error cause)
    | .ok (_, .directory _) => some (.ok ())
    | .ok _ => some (.error .alreadyExists)
  (fronts.findSome? verdict?).getD (.ok ())

/-- The bytes of the file at a path. -/
def contentOf (d : Directory) (path : String) : Except IoFault (List UInt8) :=
  match d.resolve path with
  | .error cause => .error cause
  | .ok (_, .directory _) => .error .isADirectory
  | .ok (_, .file content) => .ok content
  | .ok (_, .link _) => .error .tooManyLinks

/-- The text of the file at a path, if it can be read and is UTF-8. -/
def readText? (d : Directory) (path : String) : Option String :=
  (d.contentOf path).toOption.bind fun bytes => String.fromUTF8? ⟨bytes.toArray⟩

/-- A directory stands at the end of the path. -/
def isDirectory (d : Directory) (path : String) : Bool :=
  match d.resolve path with
  | .ok (_, .directory _) => true
  | _ => false

end CodeIndex.Directory
