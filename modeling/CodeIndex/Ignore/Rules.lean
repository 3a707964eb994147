import CodeIndex.Ignore.Pattern
import CodeIndex.Text.Space
import CodeIndex.Text.Split
/-!
# Ignore files

Each line of an ignore file is a rule for the paths below the file's directory: a pattern, perhaps
behind an exclamation mark, which makes an exception, and perhaps in front of a slash, which limits
it to directories. A pattern without a slash in it concerns names at any depth. Of the rules that
match a path the last counts.
-/

namespace CodeIndex.Ignore

open CodeIndex.Text

/-! ### Rules -/

/-- One line of an ignore file. -/
structure Rule where
  pattern : Pattern
  /-- What matches is not ignored after all. -/
  exception : Bool
  onlyDirectories : Bool
  deriving DecidableEq, Repr

/-- The line without the white space at its end, unless the last space is escaped. -/
def withoutTrailingSpace (cs : List Char) : List Char :=
  if ['\\', ' '].isSuffixOf cs then cs else (Text.dropSpaces cs.reverse).reverse

/-- The text in front of a slash at its end, without a backslash that escapes the slash. -/
def beforeSlash? (cs : List Char) : Option (List Char) :=
  if cs.getLast? == some '/' then
    let front := cs.dropLast
    some (if front.getLast? == some '\\' then front.dropLast else front)
  else none

/-- The text in which a pattern without a slash may match at any depth. -/
def atAnyDepth (cs : List Char) : List Char :=
  if cs.contains '/' || cs == ['*', '*'] then cs else "**/".toList ++ cs

/-- The text in which `**` at the end stands for what is inside a directory only. -/
def insideOnly (cs : List Char) : List Char :=
  if "/**".toList.isSuffixOf cs then cs ++ "/*".toList else cs

/-- The rule of a line; comments, empty lines and bad patterns have none. -/
def ruleOf? (line : List Char) : Option Rule :=
  let cs := withoutTrailingSpace line
  if line.head? == some '#' || cs.isEmpty then none
  else
    let escaped := (behind? "\\!" cs).isSome || (behind? "\\#" cs).isSome
    let (exception, cs) :=
      if escaped then (false, cs.tail)
      else
        match behind? "!" cs with
        | some rest => (true, rest)
        | none => (false, cs)
    let (anchored, cs) :=
      match if escaped then none else behind? "/" cs with
      | some rest => (true, rest)
      | none => (false, cs)
    let (onlyDirectories, cs) :=
      match beforeSlash? cs with
      | some front => (true, front)
      | none => (false, cs)
    match Pattern.read (insideOnly (if anchored then cs else atAnyDepth cs)) with
    | .ok pattern => some ⟨pattern, exception, onlyDirectories⟩
    | .error _ => none

/-! ### Files -/

/-- The lines of some octets, without their ends; a carriage return in front of a line feed belongs
to the end. -/
def linesOf (bytes : List UInt8) : List (List UInt8) :=
  match bytes.splitOn 0x0A with
  | [] => []
  | parts =>
    let lines := if parts.getLast? == some [] then parts.dropLast else parts
    lines.mapIdx fun i line =>
      if i + 1 < parts.length && line.getLast? == some 0x0D then line.dropLast else line

/-- The lines that are text, up to the first that is not. A byte order mark may come first. -/
def textLines (bytes : List UInt8) : List (List Char) :=
  let texts := (linesOf bytes).map fun line => String.fromUTF8? ⟨line.toArray⟩
  let lines := (texts.takeWhile Option.isSome).map fun s => (s.getD "").toList
  match lines with
  | first :: rest => first.dropWhile (· == '\ufeff') :: rest
  | [] => []

/-- The rules of an ignore file. -/
def rulesOf (bytes : List UInt8) : List Rule :=
  (textLines bytes).filterMap ruleOf?

/-- What a path gets from some rules. -/
inductive Verdict where
  | ignored
  | excepted
  deriving DecidableEq, Repr

/-- The verdict of the last rule that concerns a path, if there is one. -/
def verdict? (rules : List Rule) (path : String) (isDirectory : Bool) : Option Verdict :=
  let concerns (r : Rule) : Bool :=
    (isDirectory || !r.onlyDirectories) && r.pattern.accepts path
  (rules.reverse.find? concerns).map fun r => if r.exception then .excepted else .ignored

/-! ### Nested files -/

/-- The ignore files of one directory. -/
structure Layer where
  /-- The directory, by its components below the root of the search. -/
  place : List String
  /-- The rules for every tool. -/
  general : List Rule
  /-- The rules for version control. -/
  versioned : List Rule
  /-- The rules of this checkout alone. -/
  excluded : List Rule

/-- The path of a place as a layer sees it. -/
def Layer.pathOf (l : Layer) (place : List String) : String :=
  String.intercalate "/" (place.drop l.place.length)

/-- The verdict of the nearest layer that has one. -/
def nearest? (layers : List Layer) (rules : Layer → List Rule) (place : List String)
    (isDirectory : Bool) : Option Verdict :=
  layers.findSome? fun l => verdict? (rules l) (l.pathOf place) isDirectory

/-- The verdict on a place in some layers, the nearest first. Rules for every tool come before those
for version control, and these before those of the checkout. -/
def judge? (layers : List Layer) (place : List String) (isDirectory : Bool) : Option Verdict :=
  ((nearest? layers Layer.general place isDirectory).or
    (nearest? layers Layer.versioned place isDirectory)).or
    (nearest? layers Layer.excluded place isDirectory)

end CodeIndex.Ignore
