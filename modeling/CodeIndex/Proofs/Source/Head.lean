import CodeIndex.Proofs.FileTree.Resolve
import CodeIndex.Proofs.Text.Trim
import CodeIndex.Source.Head
/-!
# The head of a checkout

The head is read in one directory (`IsHeadDirectory`), which is that of the checkout itself or the
one that its pointer file names. That directory is also the only one where the commit of a branch is
looked up (`Tells`): in a file of the branch first, and in the packed list if that file is missing
or blank.

`head_exact` says what this is right for. A main checkout keeps its branches in the directory of its
head (`IsKept`), so their commits are found, but for names with white space around them, which is
taken off. A linked worktree has a directory of its own for its head and shares the branches, which
lie outside that directory: their commits are not found.
-/

namespace CodeIndex.Source

open CodeIndex.Text

variable {world : Directory} {root directory reference commit keyword value text : String}

/-! ### Keywords and values -/

/-- The text is a keyword and a value, with white space between and around them. -/
def HasValue (keyword value text : String) : Prop :=
  ∃ gap, isBlank gap = true ∧ IsAround (keyword ++ gap ++ value) text

theorem textBehind?_eq_some_iff {front s rest : String} :
    textBehind? front s = some rest ↔ s = front ++ rest := by
  rw [textBehind?, Option.map_eq_some_iff, ← String.toList_inj, String.toList_append]
  constructor
  · rintro ⟨cs, hbehind, rfl⟩
    rw [behind?] at hbehind
    split at hbehind
    · rename_i hfront
      obtain ⟨back, hback⟩ := List.isPrefixOf_iff_prefix.mp hfront
      obtain rfl := Option.some.inj hbehind
      rw [← hback, ← String.length_toList, List.drop_left, String.toList_ofList]
    · cases hbehind
  · intro hs
    refine ⟨rest.toList, ?_, String.ofList_toList⟩
    have hfront : front.toList.isPrefixOf s.toList := by
      rw [hs, List.isPrefixOf_iff_prefix]
      exact List.prefix_append _ _
    rw [behind?, if_pos hfront, hs, ← String.length_toList, List.drop_left]

/-- The value of a text with a keyword is found, without the white space at its end. -/
theorem exists_of_hasValue (hkeyword : IsTrimmed keyword) (hne : keyword ≠ "")
    (h : HasValue keyword value text) :
    ∃ rest, textBehind? keyword (trim text) = some rest ∧ trim rest = trim value := by
  obtain ⟨gap, hgap, haround⟩ := h
  refine ⟨trimEnd (gap ++ value), ?_, ?_⟩
  · rw [textBehind?_eq_some_iff, trim_eq_of_isAround haround, String.append_assoc,
      trim_append hkeyword hne]
  · have hend := isAround_append_trimEnd "" (gap ++ value)
    rw [String.empty_append, String.empty_append] at hend
    rw [← trim_eq_of_isAround hend]
    exact trim_eq_of_isAround ⟨gap, "", String.append_empty.symm, hgap, rfl⟩

theorem hasValue_of_textBehind? {rest : String} (h : textBehind? keyword (trim text) = some rest) :
    HasValue keyword (trim rest) text := by
  rw [textBehind?_eq_some_iff] at h
  obtain ⟨gap, back, hrest, hgap, hback⟩ := isAround_trim rest
  have haround : IsAround (keyword ++ gap ++ trim rest) (trim text) := by
    refine ⟨"", back, ?_, rfl, hback⟩
    rw [h, String.empty_append]
    conv_lhs => rw [hrest]
    simp only [String.append_assoc]
  exact ⟨gap, hgap, haround.trans (isAround_trim text)⟩

/-! ### The directory of the head -/

variable (world root) in
/-- Where the head of a checkout stands: in its own directory, or where its pointer file points to,
which may be a path from the checkout. -/
inductive IsHeadDirectory : String → Prop where
  | own : world.isDirectory (Path.join root ".git") = true →
      IsHeadDirectory (Path.join root ".git")
  | pointed {text target : String} : world.readText? (Path.join root ".git") = some text →
      HasValue "gitdir:" target text → IsTrimmed target → IsHeadDirectory (Path.join root target)

theorem readText?_of_isDirectory {path : String} (h : world.isDirectory path = true) :
    world.readText? path = none := by
  rw [Directory.isDirectory] at h
  split at h
  · rename_i place entries hresolve
    rw [Directory.readText?, Directory.contentOf, hresolve]
    rfl
  · cases h

theorem isHeadDirectory_iff :
    IsHeadDirectory world root directory ↔ headDirectory? world root = some directory := by
  rw [headDirectory?]
  constructor
  · rintro (hown | ⟨hread, hvalue, htarget⟩)
    · exact if_pos hown
    · obtain ⟨rest, hbehind, hrest⟩ := exists_of_hasValue (by decide) (by decide) hvalue
      -- What can be read as a text is no directory, so only one of the two ways is open.
      have hown : ¬ world.isDirectory (Path.join root ".git") = true := by
        intro hown
        rw [readText?_of_isDirectory hown] at hread
        cases hread
      rw [trim_of_isAround (.refl _) htarget] at hrest
      simp [hown, hread, hbehind, hrest]
  · intro h
    by_cases hown : world.isDirectory (Path.join root ".git") = true
    · obtain rfl := Option.some.inj ((if_pos hown).symm.trans h)
      exact .own hown
    · replace h := (if_neg hown).symm.trans h
      obtain ⟨text, hread, h⟩ := Option.bind_eq_some_iff.mp h
      obtain ⟨rest, hbehind, h⟩ := Option.bind_eq_some_iff.mp h
      obtain rfl := Option.some.inj h
      exact .pointed hread (hasValue_of_textBehind? hbehind) (isTrimmed_trim rest)

/-! ### Packed lists -/

/-- The digits of a hash. -/
def hashDigits : List Char :=
  "0123456789abcdef".toList

/-- The text is the hash of a commit. -/
structure IsHash (text : String) : Prop where
  nonempty : text ≠ ""
  digits : ∀ c ∈ text.toList, c ∈ hashDigits

instance (text : String) : Decidable (IsHash text) :=
  decidable_of_iff (text ≠ "" ∧ text.toList.all (hashDigits.contains ·) = true)
    ⟨fun h => ⟨h.1, by simpa using h.2⟩, fun h => ⟨h.nonempty, by simpa using h.digits⟩⟩

/-- No digit of a hash has a meaning of its own in the files around it. -/
theorem IsHash.not_mem {c : Char} (h : IsHash text) (hc : c ∉ hashDigits) : c ∉ text.toList :=
  fun hmem => hc (h.digits c hmem)

theorem IsHash.isTrimmed (h : IsHash text) : IsTrimmed text := by
  have hplain : ∀ c ∈ text.toList, isSpace c = false := by
    intro c hc
    have hdigits : hashDigits.all (!isSpace ·) = true := by decide
    simpa using List.all_eq_true.mp hdigits c (h.digits c hc)
  constructor
  · exact fun c hc => hplain c (List.mem_of_mem_head? hc)
  · rintro ⟨c, hc, hspace⟩
    rw [hplain c (List.mem_of_mem_getLast? hc)] at hspace
    cases hspace

/-- A line of a packed list: a comment, the commit behind the tag in the line above, or an entry. -/
inductive PackedLine where
  | comment (text : String)
  | peeled (hash : String)
  | entry (hash name : String)

namespace PackedLine

/-- A line as it is written. -/
def written : PackedLine → String
  | comment text => "#" ++ text
  | peeled hash => "^" ++ hash
  | entry hash name => hash ++ " " ++ name

/-- The line can be written as one line. -/
def IsWellFormed : PackedLine → Prop
  | comment text => '\n' ∉ text.toList
  | peeled hash => IsHash hash
  | entry hash name => IsHash hash ∧ '\n' ∉ name.toList

instance : (line : PackedLine) → Decidable line.IsWellFormed
  | comment text => inferInstanceAs (Decidable ('\n' ∉ text.toList))
  | peeled hash => inferInstanceAs (Decidable (IsHash hash))
  | entry hash name => inferInstanceAs (Decidable (IsHash hash ∧ '\n' ∉ name.toList))

/-- The commit that the line gives for a reference. -/
def commitFor? (reference : String) : PackedLine → Option String
  | entry hash name => if trim name = reference then some hash else none
  | _ => none

variable {line : PackedLine}

theorem IsWellFormed.newline_not_mem (h : line.IsWellFormed) : '\n' ∉ line.written.toList := by
  cases line with
  | comment text => simpa [written, IsWellFormed] using h
  | peeled hash => simpa [written] using IsHash.not_mem h (by decide)
  | entry hash name => simpa [written] using ⟨h.1.not_mem (by decide), h.2⟩

theorem packedCommit?_written (h : line.IsWellFormed) (reference : String) :
    packedCommit? reference line.written.toList = line.commitFor? reference := by
  cases line with
  | comment text => simp [packedCommit?, written, commitFor?]
  | peeled hash => simp [packedCommit?, written, commitFor?]
  | entry hash name =>
    obtain ⟨hhash, -⟩ := h
    have hwritten : (entry hash name).written.toList = hash.toList ++ ' ' :: name.toList := by
      simp [written]
    have hunmarked : ∀ c, c ∉ hashDigits →
        ((hash.toList ++ ' ' :: name.toList).head? == some c) = false := by
      intro c hc
      rw [List.head?_append_of_ne_nil _ (by simpa using hhash.nonempty), beq_eq_false_iff_ne]
      exact fun hhead => hhash.not_mem hc (List.mem_of_mem_head? hhead)
    rw [packedCommit?, hwritten, hunmarked '#' (by decide), hunmarked '^' (by decide),
      splitFirst?_append (hhash.not_mem (by decide))]
    simp [commitFor?]

theorem commitFor?_eq_some_iff (hreference : IsTrimmed reference) :
    line.commitFor? reference = some commit ↔
      ∃ name, line = entry commit name ∧ IsAround reference name := by
  cases line <;> simp [commitFor?, trim_eq_iff, hreference, and_comm]

theorem commitFor?_eq_none_iff (hreference : IsTrimmed reference) :
    line.commitFor? reference = none ↔
      ∀ hash name, line = entry hash name → ¬ IsAround reference name := by
  cases line <;> simp [commitFor?, trim_eq_iff, hreference]

end PackedLine

/-- The text of a packed list with these lines. The last line may lack its newline. -/
inductive IsPacked : List PackedLine → String → Prop where
  | nil : IsPacked [] ""
  | last {line : PackedLine} : line.IsWellFormed → IsPacked [line] line.written
  | cons {line : PackedLine} {lines : List PackedLine} {text : String} : line.IsWellFormed →
      IsPacked lines text → IsPacked (line :: lines) (line.written ++ "\n" ++ text)

variable {lines : List PackedLine}

theorem IsPacked.findSome? (h : IsPacked lines text) (reference : String) :
    (splitChar '\n' text.toList).findSome? (packedCommit? reference)
      = lines.findSome? (·.commitFor? reference) := by
  induction h with
  | nil => rfl
  | @last line hline =>
    rw [splitChar_of_not_mem hline.newline_not_mem, List.findSome?_cons, List.findSome?_cons,
      PackedLine.packedCommit?_written hline]
    rfl
  | @cons line lines text hline _ ih =>
    have htext : (line.written ++ "\n" ++ text).toList
        = line.written.toList ++ '\n' :: text.toList := by simp
    rw [htext, splitChar_append hline.newline_not_mem, List.findSome?_cons, List.findSome?_cons,
      PackedLine.packedCommit?_written hline, ih]

/-- The first entry for a reference, white space around its name apart, has the commit. -/
def FirstNamed (lines : List PackedLine) (reference commit : String) : Prop :=
  ∃ earlier later name, lines = earlier ++ .entry commit name :: later ∧ IsAround reference name ∧
    ∀ hash other, .entry hash other ∈ earlier → ¬ IsAround reference other

theorem firstNamed_iff (hreference : IsTrimmed reference) :
    FirstNamed lines reference commit ↔
      lines.findSome? (·.commitFor? reference) = some commit := by
  rw [List.findSome?_eq_some_iff, FirstNamed]
  constructor
  · rintro ⟨earlier, later, name, hlist, haround, hearlier⟩
    refine ⟨earlier, _, later, hlist,
      (PackedLine.commitFor?_eq_some_iff hreference).mpr ⟨name, rfl, haround⟩, fun line hline => ?_⟩
    rw [PackedLine.commitFor?_eq_none_iff hreference]
    rintro hash other rfl
    exact hearlier hash other hline
  · rintro ⟨earlier, line, later, hlist, hcommit, hearlier⟩
    obtain ⟨name, rfl, haround⟩ := (PackedLine.commitFor?_eq_some_iff hreference).mp hcommit
    refine ⟨earlier, later, name, hlist, haround, fun hash other hline => ?_⟩
    exact (PackedLine.commitFor?_eq_none_iff hreference).mp (hearlier _ hline) hash other rfl

/-! ### The commit of a reference -/

/-- The lines of the packed list in a directory; there are none without such a list. -/
structure KeepsLines (world : Directory) (directory : String) (lines : List PackedLine) : Prop where
  packed : ∀ text, world.readText? (Path.join directory "packed-refs") = some text →
    IsPacked lines text
  missing : world.readText? (Path.join directory "packed-refs") = none → lines = []

/-- The reference has no file in the directory, or a blank one. -/
def LacksFile (world : Directory) (directory reference : String) : Prop :=
  ∀ text, world.readText? (Path.join directory reference) = some text → isBlank text = true

theorem lacksFile_of_eq_none (h : world.readText? (Path.join directory reference) = none) :
    LacksFile world directory reference := by
  intro text hread
  rw [h] at hread
  cases hread

variable (world directory lines) in
/-- The reference has the commit: in a file of its own, or, if that is missing or blank, in the one
line of the packed list that is for it. -/
inductive IsKept (reference commit : String) : Prop where
  | loose {text : String} : world.readText? (Path.join directory reference) = some text →
      IsAround commit text → IsKept reference commit
  | packed : LacksFile world directory reference → .entry commit reference ∈ lines →
      (∀ hash, .entry hash reference ∈ lines → hash = commit) → IsKept reference commit

variable (world directory lines) in
/-- The directory tells a commit for the reference: its file does, or, if that is missing or blank,
the first line of the packed list that can be taken for it. -/
inductive Tells (reference commit : String) : Prop where
  | loose {text : String} : world.readText? (Path.join directory reference) = some text →
      IsAround commit text → Tells reference commit
  | packed : LacksFile world directory reference → FirstNamed lines reference commit →
      Tells reference commit

/-- Without a file of its own, a reference has the commit that the packed list gives for it. -/
theorem commitOf?_of_lacksFile (hlines : KeepsLines world directory lines)
    (hfile : LacksFile world directory reference) :
    commitOf? world directory reference = lines.findSome? (·.commitFor? reference) := by
  have hlisted : (world.readText? (Path.join directory "packed-refs")).bind
      (fun packed => (splitChar '\n' packed.toList).findSome? (packedCommit? reference))
        = lines.findSome? (·.commitFor? reference) := by
    cases hpacked : world.readText? (Path.join directory "packed-refs") with
    | none =>
      rw [hlines.missing hpacked]
      rfl
    | some text => exact (hlines.packed text hpacked).findSome? reference
  have hloose : ((world.readText? (Path.join directory reference)).map trim).filter (· != "")
      = none := by
    cases hread : world.readText? (Path.join directory reference) with
    | none => rfl
    | some text => simp [trim_eq_empty_iff.mpr (hfile text hread)]
  rw [commitOf?, hloose]
  exact hlisted

theorem commitOf?_eq_some_iff (hlines : KeepsLines world directory lines)
    (hreference : IsTrimmed reference) (hcommit : IsHash commit) :
    commitOf? world directory reference = some commit ↔
      Tells world directory lines reference commit := by
  by_cases hfile : LacksFile world directory reference
  -- Without a file the list decides; a blank file holds no commit, since a hash is not empty.
  · rw [commitOf?_of_lacksFile hlines hfile, ← firstNamed_iff hreference]
    refine ⟨.packed hfile, ?_⟩
    rintro (⟨hread, haround⟩ | ⟨-, hfirst⟩)
    · have hempty := trim_eq_empty_iff.mpr (hfile _ hread)
      rw [trim_of_isAround haround hcommit.isTrimmed] at hempty
      exact absurd hempty hcommit.nonempty
    · exact hfirst
  -- A file that is not blank decides alone.
  · rw [LacksFile, not_forall] at hfile
    obtain ⟨text, hfile⟩ := hfile
    rw [Classical.not_imp, ← trim_eq_empty_iff] at hfile
    obtain ⟨hread, htext⟩ := hfile
    have hcommitOf : commitOf? world directory reference = some (trim text) := by
      simp [commitOf?, hread, htext]
    rw [hcommitOf, Option.some.injEq, trim_eq_iff, and_iff_left hcommit.isTrimmed]
    refine ⟨.loose hread, ?_⟩
    rintro (⟨hread', haround⟩ | ⟨hlacks, -⟩)
    · rw [hread] at hread'
      obtain rfl := Option.some.inj hread'
      exact haround
    · exact absurd (trim_eq_empty_iff.mpr (hlacks text hread)) htext

/-- What is kept is told, unless another name in the packed list can be taken for the reference. -/
theorem IsKept.tells (hreference : IsTrimmed reference)
    (h : IsKept world directory lines reference commit)
    (hnames : ∀ hash name, .entry hash name ∈ lines → IsAround reference name → name = reference) :
    Tells world directory lines reference commit := by
  cases h with
  | loose hread haround => exact .loose hread haround
  | packed hfile hentry honly =>
    have hsome : (lines.findSome? (·.commitFor? reference)).isSome := by
      rw [List.findSome?_isSome_iff]
      refine ⟨_, hentry, ?_⟩
      rw [PackedLine.commitFor?, if_pos (trim_of_isAround (.refl _) hreference)]
      rfl
    obtain ⟨first, hfirst⟩ := Option.isSome_iff_exists.mp hsome
    rw [← firstNamed_iff hreference] at hfirst
    -- The first entry that can be taken for the reference is one for it.
    obtain ⟨earlier, later, name, hlist, haround, -⟩ := id hfirst
    have hmem : .entry first name ∈ lines := hlist ▸ List.mem_append_right _ List.mem_cons_self
    obtain rfl := hnames first name hmem haround
    obtain rfl := honly first hmem
    exact .packed hfile hfirst

/-! ### The head -/

section Read

variable (hdirectory : IsHeadDirectory world root directory)
  (hread : world.readText? (Path.join directory "HEAD") = some text)
include hdirectory hread

/-- A head that names a reference. -/
theorem headOf_of_hasValue (h : HasValue "ref:" value text) :
    headOf world root
      = ⟨commitOf? world directory (trim value), some (branchOf (trim value))⟩ := by
  obtain ⟨rest, hbehind, hrest⟩ := exists_of_hasValue (by decide) (by decide) h
  rw [isHeadDirectory_iff] at hdirectory
  simp [headOf, hdirectory, hread, hbehind, hrest]

/-- A head that is on a branch. -/
theorem headOf_branch {branch : String} (h : HasValue "ref:" ("refs/heads/" ++ branch) text) :
    headOf world root = ⟨commitOf? world directory ("refs/heads/" ++ trimEnd branch),
      some (trimEnd branch)⟩ := by
  have hbranch : branchOf ("refs/heads/" ++ trimEnd branch) = trimEnd branch := by
    rw [branchOf, textBehind?_eq_some_iff.mpr rfl, Option.getD_some]
  rw [headOf_of_hasValue hdirectory hread h, trim_append (by decide) (by decide), hbranch]

/-- A head that is a commit itself. -/
theorem headOf_detached (h : IsAround commit text) (hcommit : IsHash commit) :
    headOf world root = ⟨some commit, none⟩ := by
  -- The keyword has letters that are no digits of a hash.
  have hplain : textBehind? "ref:" commit = none := by
    rw [Option.eq_none_iff_forall_ne_some]
    intro rest hbehind
    have hmem : 'r' ∈ commit.toList := by
      rw [textBehind?_eq_some_iff.mp hbehind, String.toList_append]
      exact List.mem_append_left _ (by decide)
    exact hcommit.not_mem (by decide) hmem
  rw [isHeadDirectory_iff] at hdirectory
  simp [headOf, hdirectory, hread, trim_of_isAround h hcommit.isTrimmed, hplain, hcommit.nonempty]

end Read

/-- No head can be read. -/
theorem headOf_unreadable (h : ∀ directory, IsHeadDirectory world root directory →
      world.readText? (Path.join directory "HEAD") = none) :
    headOf world root = ⟨none, none⟩ := by
  cases hdirectory : headDirectory? world root with
  | none => simp [headOf, hdirectory]
  | some directory =>
    have hread := h directory (isHeadDirectory_iff.mpr hdirectory)
    simp [headOf, hdirectory, hread]

theorem isTrimmed_reference {branch : String} (hbranch : ¬ EndsInSpace branch) :
    IsTrimmed ("refs/heads/" ++ branch) := by
  have htrimmed := isTrimmed_append_trimEnd (by decide : IsTrimmed "refs/heads/") (by decide) branch
  rwa [trimEnd_eq_self_iff.mpr hbranch] at htrimmed

variable (world root) in
/-- The checkout is on a branch: in the directory of its head, the head names that branch. -/
structure IsOnBranch (directory branch : String) : Prop where
  isHeadDirectory : IsHeadDirectory world root directory
  hasValue : ∃ text, world.readText? (Path.join directory "HEAD") = some text ∧
    HasValue "ref:" ("refs/heads/" ++ branch) text

section OnBranch

variable {branch : String} (hon : IsOnBranch world root directory branch)
include hon

/-- The branch is found without the white space at its end. -/
theorem IsOnBranch.headOf_eq :
    headOf world root = ⟨commitOf? world directory ("refs/heads/" ++ trimEnd branch),
      some (trimEnd branch)⟩ := by
  obtain ⟨text, hread, hvalue⟩ := hon.hasValue
  exact headOf_branch hon.isHeadDirectory hread hvalue

/-- Commit and branch are found if the directory tells the commit and the branch can be read. -/
theorem IsOnBranch.headOf_eq_iff (hlines : KeepsLines world directory lines)
    (hcommit : IsHash commit) :
    headOf world root = ⟨some commit, some branch⟩ ↔
      ¬ EndsInSpace branch ∧ Tells world directory lines ("refs/heads/" ++ branch) commit := by
  rw [hon.headOf_eq, Head.mk.injEq, Option.some.injEq, trimEnd_eq_self_iff, and_comm]
  refine and_congr_right fun hbranch => ?_
  -- Only for a branch that is read as it is the right reference is looked up.
  rw [trimEnd_eq_self_iff.mpr hbranch]
  exact commitOf?_eq_some_iff hlines (isTrimmed_reference hbranch) hcommit

end OnBranch

/-- **The head of a checkout.** On a branch, commit and branch are found just if the name of the
branch does not end with white space and the directory of the head tells the commit. It does if the
branch is kept there, as in a main checkout, and no name in the packed list is that of the branch
with white space around it. If the directory keeps nothing for the branch, like that of a linked
worktree, only the branch is found. A detached head is the commit, and without a head that can be
read nothing is found. -/
theorem head_exact (world : Directory) (root : String) :
    (∀ directory branch lines commit, IsOnBranch world root directory branch →
      KeepsLines world directory lines → IsHash commit →
      let reference := "refs/heads/" ++ branch
      (headOf world root = ⟨some commit, some branch⟩ ↔
        ¬ EndsInSpace branch ∧ Tells world directory lines reference commit) ∧
      (¬ EndsInSpace branch → IsKept world directory lines reference commit →
        (∀ hash name, .entry hash name ∈ lines → IsAround reference name → name = reference) →
        headOf world root = ⟨some commit, some branch⟩) ∧
      (¬ EndsInSpace branch → LacksFile world directory reference →
        (∀ hash name, .entry hash name ∈ lines → ¬ IsAround reference name) →
        headOf world root = ⟨none, some branch⟩)) ∧
    (∀ directory text commit, IsHeadDirectory world root directory →
      world.readText? (Path.join directory "HEAD") = some text → IsAround commit text →
      IsHash commit → headOf world root = ⟨some commit, none⟩) ∧
    ((∀ directory, IsHeadDirectory world root directory →
        world.readText? (Path.join directory "HEAD") = none) →
      headOf world root = ⟨none, none⟩) := by
  refine ⟨?_, fun _ _ _ => headOf_detached, headOf_unreadable⟩
  intro directory branch lines commit hon hlines hcommit reference
  refine ⟨hon.headOf_eq_iff hlines hcommit, ?_, ?_⟩
  · intro hbranch hkept hnames
    exact (hon.headOf_eq_iff hlines hcommit).mpr
      ⟨hbranch, hkept.tells (isTrimmed_reference hbranch) hnames⟩
  · intro hbranch hfile hnames
    have hnone : lines.findSome? (·.commitFor? reference) = none := by
      rw [List.findSome?_eq_none_iff]
      intro line hline
      rw [PackedLine.commitFor?_eq_none_iff (isTrimmed_reference hbranch)]
      rintro hash name rfl
      exact hnames hash name hline
    rw [hon.headOf_eq, trimEnd_eq_self_iff.mpr hbranch, commitOf?_of_lacksFile hlines hfile, hnone]

/-- A main checkout that keeps its branch among other lines of a packed list. -/
theorem head_exact_packed :
    let commit := "0123456789abcdef0123456789abcdef01234567"
    let tag := "89abcdef0123456789abcdef0123456789abcdef"
    let packed := "# pack-refs with: peeled\n" ++ tag ++ " refs/tags/v1\n^" ++ commit ++ "\n"
      ++ commit ++ " refs/heads/dev\n"
    let git := Directory.ofList [("HEAD", .file (octets "ref: refs/heads/dev\n")),
      ("packed-refs", .file (octets packed))]
    let world := Directory.ofList [("r", .directory (.ofList [(".git", .directory git)]))]
    headOf world "/r" = ⟨some commit, some "dev"⟩ := by
  intro commit tag packed git world
  let lines : List PackedLine := [.comment " pack-refs with: peeled", .entry tag "refs/tags/v1",
    .peeled commit, .entry commit "refs/heads/dev"]
  have hwf : world.IsWellFormed := by decide +kernel
  have hgit : world.at? ["r", ".git"] = some (.directory git) := by
    simp [world, Directory.at?_eq_bind, Directory.get?_ofList, Node.at?, Directory.at?]
  have hhead : world.readText? (Path.join "/r/.git" "HEAD") = some "ref: refs/heads/dev\n" :=
    Directory.readText?_eq_some hwf hgit "HEAD" (Directory.get?_ofList _ _) (by decide +kernel)
  have hpacked : world.readText? (Path.join "/r/.git" "packed-refs") = some packed :=
    Directory.readText?_eq_some hwf hgit "packed-refs" (Directory.get?_ofList _ _)
      (by decide +kernel)
  have hloose : world.readText? (Path.join "/r/.git" "refs/heads/dev") = none :=
    Directory.readText?_eq_none hwf hgit "refs" ["heads", "dev"]
      (by simp [git, Directory.names_ofList]) (by decide) (by decide +kernel)
  have hon : IsOnBranch world "/r" "/r/.git" "dev" := by
    have hown : world.isDirectory (Path.join "/r" ".git") = true := by
      have hpath : Path.join "/r" ".git" = Directory.pathOf ["r", ".git"] := by decide +kernel
      rw [hpath, Directory.isDirectory, Directory.resolve_pathOf hwf (by simp) hgit]
    have hjoin : Path.join "/r" ".git" = "/r/.git" := by decide +kernel
    exact ⟨hjoin ▸ .own hown, _, hhead, " ", rfl, "", "\n", rfl, rfl, rfl⟩
  have hlines : KeepsLines world "/r/.git" lines := by
    have htext : IsPacked lines packed :=
      .cons (by decide) (.cons (by decide) (.cons (by decide) (.cons (by decide) .nil)))
    constructor
    · intro text hread
      rw [hpacked] at hread
      exact Option.some.inj hread ▸ htext
    · intro hread
      rw [hpacked] at hread
      cases hread
  have hkept : IsKept world "/r/.git" lines "refs/heads/dev" commit := by
    refine .packed (lacksFile_of_eq_none hloose) (by simp [lines]) fun hash hentry => ?_
    simpa [lines] using hentry
  obtain ⟨-, hfound, -⟩ := (head_exact world "/r").1 "/r/.git" "dev" lines commit hon hlines
    (by decide)
  refine hfound (by decide) hkept fun hash name hentry haround => ?_
  have htrim := trim_of_isAround haround (by decide)
  simp only [lines, List.mem_cons, reduceCtorEq, PackedLine.entry.injEq, List.not_mem_nil,
    or_false, false_or] at hentry
  rcases hentry with ⟨-, rfl⟩ | ⟨-, rfl⟩
  · exact absurd htrim (by decide)
  · rfl

/-- A worktree that is linked to a checkout, whose repository keeps the branch of the worktree. The
branch is found, its commit is not. -/
theorem misses_commit_of_linked_worktree :
    let commit := "0123456789abcdef0123456789abcdef01234567"
    let linked := Directory.ofList [("HEAD", .file (octets "ref: refs/heads/dev\n")),
      ("commondir", .file (octets "../..\n"))]
    let heads := Directory.ofList [("dev", .file (octets (commit ++ "\n")))]
    let git := Directory.ofList [("HEAD", .file (octets "ref: refs/heads/main\n")),
      ("refs", .directory (.ofList [("heads", .directory heads)])),
      ("worktrees", .directory (.ofList [("wt", .directory linked)]))]
    let checkout := Directory.ofList [(".git", .file (octets "gitdir: /main/.git/worktrees/wt\n"))]
    let world := Directory.ofList [("main", .directory (.ofList [(".git", .directory git)])),
      ("wt", .directory checkout)]
    IsHash commit ∧ IsKept world "/main/.git" [] "refs/heads/dev" commit ∧
    IsOnBranch world "/wt" "/main/.git/worktrees/wt" "dev" ∧
    headOf world "/wt" = ⟨none, some "dev"⟩ := by
  intro commit linked heads git checkout world
  have hwf : world.IsWellFormed := by decide +kernel
  have hheads : world.at? ["main", ".git", "refs", "heads"] = some (.directory heads) := by
    simp [world, git, Directory.at?_eq_bind, Directory.get?_ofList, List.lookup_cons, Node.at?,
      Directory.at?]
  have hlinked : world.at? ["main", ".git", "worktrees", "wt"] = some (.directory linked) := by
    simp [world, git, Directory.at?_eq_bind, Directory.get?_ofList, List.lookup_cons, Node.at?,
      Directory.at?]
  have hcheckout : world.at? ["wt"] = some (.directory checkout) := by
    simp [world, Directory.at?_eq_bind, Directory.get?_ofList, List.lookup_cons, Node.at?,
      Directory.at?]
  have hbranch : world.readText? (Path.join "/main/.git" "refs/heads/dev")
      = some (commit ++ "\n") :=
    Directory.readText?_eq_some hwf hheads "dev" (Directory.get?_ofList _ _) (by decide +kernel)
  have hpointer : world.readText? (Path.join "/wt" ".git")
      = some "gitdir: /main/.git/worktrees/wt\n" :=
    Directory.readText?_eq_some hwf hcheckout ".git" (Directory.get?_ofList _ _) (by decide +kernel)
  have hhead : world.readText? (Path.join "/main/.git/worktrees/wt" "HEAD")
      = some "ref: refs/heads/dev\n" :=
    Directory.readText?_eq_some hwf hlinked "HEAD" (Directory.get?_ofList _ _) (by decide +kernel)
  -- The directory of the worktree has no files of branches, and no packed list.
  have hloose : world.readText? (Path.join "/main/.git/worktrees/wt" "refs/heads/dev") = none :=
    Directory.readText?_eq_none hwf hlinked "refs" ["heads", "dev"]
      (by simp [linked, Directory.names_ofList]) (by decide) (by decide +kernel)
  have hpacked : world.readText? (Path.join "/main/.git/worktrees/wt" "packed-refs") = none :=
    Directory.readText?_eq_none hwf hlinked "packed-refs" []
      (by simp [linked, Directory.names_ofList]) (by decide) (by decide +kernel)
  have hdirectory : IsHeadDirectory world "/wt" "/main/.git/worktrees/wt" := by
    have hjoin : Path.join "/wt" "/main/.git/worktrees/wt" = "/main/.git/worktrees/wt" := by
      decide +kernel
    exact hjoin ▸ .pointed hpointer ⟨" ", rfl, "", "\n", by decide, rfl, rfl⟩ (by decide)
  have hon : IsOnBranch world "/wt" "/main/.git/worktrees/wt" "dev" :=
    ⟨hdirectory, _, hhead, " ", rfl, "", "\n", by decide, rfl, rfl⟩
  refine ⟨by decide, .loose hbranch ⟨"", "\n", by simp, rfl, rfl⟩, hon, ?_⟩
  have hlines : KeepsLines world "/main/.git/worktrees/wt" [] := by
    refine ⟨fun text hread => ?_, fun _ => rfl⟩
    rw [hpacked] at hread
    cases hread
  have hname : trimEnd "dev" = "dev" := by decide
  have hreference : "refs/heads/" ++ "dev" = "refs/heads/dev" := by decide
  rw [hon.headOf_eq, hname, hreference, commitOf?_of_lacksFile hlines (lacksFile_of_eq_none hloose)]
  rfl

end CodeIndex.Source
