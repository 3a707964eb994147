import CodeIndex.Text.Lowercase
import CodeIndex.Text.Space
import CodeIndex.Text.Split
import CodeIndex.Text.Utf8
import CodeIndex.Text.Word
/-!
# Academic writing

Whether a document reads like academic writing. Eight signals are looked for, such as a theorem
environment, a heading "References" or an arXiv number, and a document that shows two of them is
academic. How often a signal shows does not matter.

A signal is a predicate on one place of a text: the character in front of the place, if any, and all
that follows. A text shows the signal when some place does (`showsAt`).
-/

namespace CodeIndex.AcademicWriting

open CodeIndex.Text

/-! ### Places -/

/-- A predicate on a place: the character in front of it and the text behind it. -/
abbrev Signal := Option Char → List Char → Bool

/-- Some place of `cs`, which follows `before`, shows the signal. -/
def showsAt (signal : Signal) (before : Option Char) (cs : List Char) : Bool :=
  signal before cs ||
    match cs with
    | [] => false
    | c :: rest => showsAt signal (some c) rest

/-- The text shows the signal. -/
def shows (text : String) (signal : Signal) : Bool :=
  showsAt signal none text.toList

/-! ### Reading words -/

/-- The character without its case. Besides the ASCII letters this concerns the long s and the
Kelvin sign. -/
def fold (c : Char) : Char :=
  if c == 'ſ' then 's' else if c == '\u212a' then 'k' else c.toLower

/-- What stands behind a word in front of a text, in either case. -/
def behindWord? : List Char → List Char → Option (List Char)
  | [], cs => some cs
  | w :: word, c :: cs => if fold c == w then behindWord? word cs else none
  | _ :: _, [] => none

/-- What stands behind the first of some words that is in front of a text, in either case. -/
def behindAny? (words : List String) (cs : List Char) : Option (List Char) :=
  words.findSome? fun word => behindWord? word.toList cs

/-- What stands behind the white space, the hashes and the white space that may begin a heading. -/
def dropHeadingMark (cs : List Char) : List Char :=
  dropSpaces ((dropSpaces cs).dropWhile (· == '#'))

/-- Nothing but white space is left on the line. -/
def endsLine (cs : List Char) : Bool :=
  (cs.takeWhile isSpace).contains '\n' || (dropSpaces cs).isEmpty

/-- A line begins behind `before`. -/
def beginsLine (before : Option Char) : Bool :=
  before.all (· == '\n')

/-- No word goes on behind `before`. -/
def beginsWord (before : Option Char) : Bool :=
  before.all fun c => !isWordChar c

/-- How many decimal digits come first, and what stands behind them. -/
def digitRun (cs : List Char) : Nat × List Char :=
  ((cs.takeWhile isDecimalDigit).length, cs.dropWhile isDecimalDigit)

/-! ### Signals -/

/-- The beginning of an environment of a paper. -/
def environment : Signal := fun _ cs =>
  (behind? "\\begin\x7b" cs).any fun rest =>
    ["theorem\x7d", "lemma\x7d", "proof\x7d", "equation\x7d", "align\x7d", "abstract\x7d"].any
      fun name => (behind? name rest).isSome

/-- A heading of a section that papers have. -/
def paperHeading : Signal := fun before cs =>
  beginsLine before &&
    (behindAny? ["abstract", "bibliography", "references"] (dropHeadingMark cs)).any endsLine

/-- A numbered statement at the beginning of a line. -/
def numberedStatement : Signal := fun before cs =>
  beginsLine before &&
    (behindAny? ["theorem", "lemma", "corollary", "proposition", "definition"]
      (dropHeadingMark cs)).any fun rest =>
        rest.head?.any isSpace && (dropSpaces rest).head?.any isDecimalDigit

/-- The word that begins a proof. -/
def proofWord : Signal := fun before cs =>
  beginsWord before && (behindWord? "proof.".toList cs).isSome

/-- The number of a preprint: four digits, a point, four digits or more. -/
def preprintNumber : Signal := fun before cs =>
  beginsWord before &&
    (behindWord? "arxiv:".toList cs).any fun rest =>
      match digitRun (dropSpaces rest) with
      | (4, '.' :: rest) => 4 ≤ (digitRun rest).1
      | _ => false

/-- The identifier of a publication: four to nine digits stand between `10.` and a slash. -/
def publicationNumber : Signal := fun before cs =>
  beginsWord before &&
    (behindWord? "doi:".toList cs).any fun rest =>
      (behind? "10." (dropSpaces rest)).any fun rest =>
        match digitRun rest with
        | (n, '/' :: _) => 4 ≤ n && n ≤ 9
        | _ => false

/-- A displayed formula between double dollar signs. -/
def displayedFormula : Signal := fun _ cs =>
  (behind? "$$" cs).any fun rest =>
    rest.head?.any (· != '$') && (behind? "$$" (rest.dropWhile (· != '$'))).isSome

/-- A citation that names something. -/
def citation : Signal := fun _ cs =>
  (behind? "\\cite\x7b" cs).any fun rest => rest.head?.any (· != '\x7d') && rest.contains '\x7d'

/-- Every signal. -/
def signals : List Signal :=
  [environment, paperHeading, numberedStatement, proofWord, preprintNumber, publicationNumber,
    displayedFormula, citation]

/-! ### The verdict -/

/-- How many signals a text shows. -/
def score (text : String) : Nat :=
  signals.countP (shows text)

/-- The signals that make a document academic. -/
def threshold : Nat := 2

/-- The text reads like academic writing. -/
def isAcademic (text : String) : Bool :=
  threshold ≤ score text

/-- How much of a file is looked at, in bytes. -/
def sniffedBytes : Nat := 8192

/-- The file reads like academic writing, judged by the bytes it begins with. -/
def isAcademicFile (content : List UInt8) : Bool :=
  isAcademic (decodeLossy (content.take sniffedBytes))

end CodeIndex.AcademicWriting
