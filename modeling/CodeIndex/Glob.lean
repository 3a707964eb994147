import CodeIndex.Fault
import CodeIndex.Suffixes
import CodeIndex.Text.Lowercase
import CodeIndex.Text.Split
/-!
# Globs

Patterns for file names and slashed paths. `?` stands for any one character and `*` for any run of
characters, slashes and leading dots included. `[a-z_]` stands for one of the listed characters and
`[!a-z_]` for any other one. `**` has to be a whole component of the pattern and stands for any
number of whole components. Letters match in either case, ASCII letters alone.

Reading a pattern is `Glob.read`, with `GlobFault` for what is refused. Matching is `Glob.accepts`.
Every choice that a wildcard has is a suffix of the text: all of them for `*` (`suffixes`), those
behind a slash for `**` (`resumptions`).
-/

namespace CodeIndex

open CodeIndex.Text

/-- One member of a bracketed class. -/
inductive Glob.Member where
  | one (c : Char)
  | between (first last : Char)
  deriving DecidableEq, Repr

/-- One step of a pattern. -/
inductive Glob.Token where
  | char (c : Char)
  | anyChar
  | within (members : List Glob.Member)
  | except (members : List Glob.Member)
  | anyRun
  | anyComponents
  deriving DecidableEq, Repr

/-- A pattern that has been read. -/
structure Glob where
  tokens : List Glob.Token
  deriving DecidableEq, Repr

/-- Why a pattern is refused. Every reason has a position, counted in characters from zero. -/
inductive GlobFault where
  /-- More than two stars in a row. -/
  | starRun (position : Nat)
  /-- Two stars that are not a whole component. -/
  | partialComponent (position : Nat)
  /-- A bracket without its partner. -/
  | openClass (position : Nat)
  deriving DecidableEq, Repr

/-- The refusal as a fault. -/
def GlobFault.toFault : GlobFault → Fault
  | starRun position =>
    .globPattern position "wildcards are either regular \x60*\x60 or recursive \x60**\x60"
  | partialComponent position =>
    .globPattern position "recursive wildcards must form a single path component"
  | openClass position => .globPattern position "invalid range pattern"

namespace Glob

/-! ### Reading -/

/-- The members of a class: three characters with a dash in the middle are a range. -/
def membersOf : List Char → List Member
  | first :: '-' :: last :: rest => .between first last :: membersOf rest
  | c :: rest => .one c :: membersOf rest
  | [] => []

/-- The class that an opening bracket begins, and what stands behind it. The first character of a
class belongs to it whatever it is, so a class may hold the closing bracket. -/
def classOf? (cs : List Char) : Option (Token × List Char) :=
  match cs with
  | '!' :: first :: rest =>
    (splitFirst? ']' rest).map fun (inner, after) => (.except (membersOf (first :: inner)), after)
  | '!' :: [] => none
  | first :: rest =>
    (splitFirst? ']' rest).map fun (inner, after) => (.within (membersOf (first :: inner)), after)
  | [] => none

/-- What stands behind a class is shorter than the text. -/
theorem length_lt_of_classOf? {cs : List Char} {t : Token} {after : List Char}
    (h : classOf? cs = some (t, after)) : after.length < cs.length := by
  unfold classOf? at h
  split at h <;> simp only [Option.map_eq_some_iff, reduceCtorEq, Prod.mk.injEq, Prod.exists] at h
  all_goals
    obtain ⟨inner, rest', hsplit, -, rfl⟩ := h
    have := length_lt_of_splitFirst? hsplit
    simp only [List.length_cons]
    omega

/-- One more `**` behind the tokens read so far, last token first. A second one right behind another
adds nothing. -/
def pushComponents : List Token → List Token
  | .anyComponents :: t :: earlier => .anyComponents :: t :: earlier
  | earlier => .anyComponents :: earlier

/-- Reads on at `position`, behind the character `before` and the tokens `earlier`, last token
first. -/
def readFrom (position : Nat) (before : Option Char) (earlier : List Token) (cs : List Char) :
    Except GlobFault (List Token) :=
  match cs with
  | [] => .ok earlier.reverse
  | '?' :: rest => readFrom (position + 1) (some '?') (.anyChar :: earlier) rest
  | '*' :: '*' :: '*' :: _ => .error (.starRun (position + 2))
  | '*' :: '*' :: rest =>
    if before.all (· == '/') then
      match rest with
      | [] => .ok (pushComponents earlier).reverse
      | '/' :: rest => readFrom (position + 3) (some '/') (pushComponents earlier) rest
      | _ => .error (.partialComponent (position + 2))
    else .error (.partialComponent (position - 1))
  | '*' :: rest => readFrom (position + 1) (some '*') (.anyRun :: earlier) rest
  | '[' :: rest =>
    match h : classOf? rest with
    | some (t, after) =>
      have := length_lt_of_classOf? h
      readFrom (position + 1 + (rest.length - after.length)) (some ']') (t :: earlier) after
    | none => .error (.openClass position)
  | c :: rest => readFrom (position + 1) (some c) (.char c :: earlier) rest
termination_by cs.length
decreasing_by all_goals (simp only [List.length_cons]; omega)

/-- The pattern that a text writes. -/
def read (pattern : String) : Except GlobFault Glob :=
  (readFrom 0 none [] pattern.toList).map Glob.mk

/-! ### Single characters -/

/-- Equal, or the two cases of one ASCII letter. -/
def sameLetter (a b : Char) : Bool :=
  a == b || a.toLower == b.toLower

/-- The member accepts a character. A range between two ASCII letters accepts either case. -/
def Member.accepts (c : Char) : Member → Bool
  | .one d => sameLetter c d
  | .between first last =>
    (first.isAlpha && last.isAlpha && decide (first.toLower ≤ c.toLower) &&
      decide (c.toLower ≤ last.toLower)) || (decide (first ≤ c) && decide (c ≤ last))

/-- The token accepts one character; the wildcards for runs accept none. -/
def Token.accepts (c : Char) : Token → Bool
  | .char d => sameLetter c d
  | .anyChar => true
  | .within members => members.any (·.accepts c)
  | .except members => !members.any (·.accepts c)
  | .anyRun | .anyComponents => false

/-! ### Matching -/

/-- Where a text goes on behind some whole components: right here, behind a slash, or at its end. -/
def resumptions (cs : List Char) : List (List Char) :=
  cs :: behindEach '/' cs ++ [[]]

/-- The tokens match all of a text. -/
def matchesAll : List Token → List Char → Bool
  | [], cs => cs.isEmpty
  | .anyRun :: ts, cs => (suffixes cs).any fun rest => matchesAll ts rest
  | .anyComponents :: ts, cs => (resumptions cs).any fun rest => matchesAll ts rest
  | _ :: _, [] => false
  | t :: ts, c :: cs => t.accepts c && matchesAll ts cs

/-- The pattern matches all of `s`. -/
def accepts (g : Glob) (s : String) : Bool :=
  matchesAll g.tokens s.toList

end Glob

end CodeIndex
