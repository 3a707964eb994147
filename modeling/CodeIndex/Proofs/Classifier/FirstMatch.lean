import CodeIndex.Classifier.Table
import Mathlib.Data.List.Forall2
/-!
# The first rule that concerns a file

`classify_first_match`: a table that was read from some rules gives a file the kind of the first
rule that concerns it (`Rule.Concerns`), and practice if there is none. Here a rule is taken as it
is written: whether it accepts a path (`Rule.Accepts`) and whether the content reads like academic
writing, which matters for academic rules alone.

So a content matters only by the bytes it begins with, and it does not matter at all when a rule
that is not academic accepts the path before any academic rule does.

The walk along the table looks at the content once at most and keeps the verdict. Its invariant is
that a verdict that is kept is the verdict on the content.
-/

namespace CodeIndex.Classifier

open CodeIndex.Text

/-! ### Rules as they are written -/

/-- The rule accepts a path: by the glob for the file name, else by the glob for the path, else by
the extensions, in any case and without the dots in front. Backslashes are read as slashes. -/
inductive Rule.Accepts (rule : Rule) (path : String) : Prop
  | fileName {pattern : String} {glob : Glob} (given : rule.fileName = some pattern)
      (read : Glob.read pattern = .ok glob)
      (accepts : glob.accepts ((Path.fileName? (Path.withSlashes path)).getD "") = true)
  | path {pattern : String} {glob : Glob} (unnamed : rule.fileName = none)
      (given : rule.path = some pattern) (read : Glob.read pattern = .ok glob)
      (accepts : glob.accepts (Path.withSlashes path) = true)
  | extension {listed ext : String} (unnamed : rule.fileName = none) (unplaced : rule.path = none)
      (given : listed ∈ rule.extensions)
      (own : Path.extension? (Path.withSlashes path) = some ext)
      (same : lowercase (String.ofList (listed.toList.dropWhile (· == '.'))) = lowercase ext)

/-- The rule concerns a file: it accepts the path, and if it is academic the content reads like
academic writing, judged by its first 8192 bytes. -/
def Rule.Concerns (rule : Rule) (path : String) (content : List UInt8) : Prop :=
  rule.Accepts path ∧
    (rule.academic = true → AcademicWriting.isAcademic (decodeLossy (content.take 8192)) = true)

/-- The kind of a file by some rules: that of the first one that concerns it, else practice. -/
inductive IsFirstMatch (rules : List Rule) (path : String) (content : List UInt8) :
    Classification → Prop
  | rule {before after : List Rule} {rule : Rule} (split : rules = before ++ rule :: after)
      (earlier : ∀ r ∈ before, ¬ r.Concerns path content) (concerns : rule.Concerns path content) :
      IsFirstMatch rules path content rule.classification
  | otherwise (none : ∀ r ∈ rules, ¬ r.Concerns path content) :
      IsFirstMatch rules path content .practice

section

variable {rules : List Rule} {rule : Rule} {path : String} {content content' : List UInt8}
  {c c' : Classification}

/-- Of a rule and further ones, the rule decides if it concerns the file, and else the others. -/
theorem isFirstMatch_cons_iff :
    IsFirstMatch (rule :: rules) path content c ↔
      rule.Concerns path content ∧ c = rule.classification ∨
      ¬ rule.Concerns path content ∧ IsFirstMatch rules path content c := by
  constructor
  · intro h
    cases h with
    | @rule before after decisive split earlier concerns =>
      cases before with
      | nil =>
        obtain ⟨rfl, -⟩ := List.cons.inj split
        exact Or.inl ⟨concerns, rfl⟩
      | cons r before =>
        obtain ⟨rfl, hrest⟩ := List.cons.inj split
        obtain ⟨hfirst, hearlier⟩ := List.forall_mem_cons.mp earlier
        exact Or.inr ⟨hfirst, .rule hrest hearlier concerns⟩
    | otherwise none =>
      obtain ⟨hfirst, hrest⟩ := List.forall_mem_cons.mp none
      exact Or.inr ⟨hfirst, .otherwise hrest⟩
  · rintro (⟨concerns, rfl⟩ | ⟨hfirst, hrest⟩)
    · exact .rule (List.nil_append _).symm nofun concerns
    · cases hrest with
      | @rule before after decisive split earlier concerns =>
        have hsplit : rule :: rules = (rule :: before) ++ decisive :: after :=
          congrArg (rule :: ·) split
        exact .rule hsplit (List.forall_mem_cons.mpr ⟨hfirst, earlier⟩) concerns
      | otherwise none => exact .otherwise (List.forall_mem_cons.mpr ⟨hfirst, none⟩)

theorem IsFirstMatch.unique (h : IsFirstMatch rules path content c)
    (h' : IsFirstMatch rules path content c') : c = c' := by
  induction rules with
  | nil =>
    cases h with
    | rule split => simp at split
    | otherwise =>
      cases h' with
      | rule split => simp at split
      | otherwise => rfl
  | cons rule rules ih =>
    rcases isFirstMatch_cons_iff.mp h with ⟨hconcerns, hc⟩ | ⟨hfirst, hrest⟩
    · rcases isFirstMatch_cons_iff.mp h' with ⟨-, hc'⟩ | ⟨hfirst', -⟩
      · exact hc.trans hc'.symm
      · exact absurd hconcerns hfirst'
    · rcases isFirstMatch_cons_iff.mp h' with ⟨hconcerns', -⟩ | ⟨-, hrest'⟩
      · exact absurd hconcerns' hfirst
      · exact ih hrest hrest'

/-- A content matters only by which rules concern the file. -/
theorem IsFirstMatch.congr (h : IsFirstMatch rules path content c)
    (hsame : ∀ r ∈ rules, r.Concerns path content ↔ r.Concerns path content') :
    IsFirstMatch rules path content' c := by
  cases h with
  | @rule before after decisive split earlier concerns =>
    have hmem : ∀ r ∈ before ++ [decisive], r ∈ rules := by
      intro r hr
      rw [split, List.append_cons]
      exact List.mem_append_left _ hr
    refine .rule split (fun r hr hconcerns => earlier r hr ?_) ?_
    · exact (hsame r (hmem r (List.mem_append_left _ hr))).mpr hconcerns
    · exact (hsame decisive (hmem decisive (by simp))).mp concerns
  | otherwise none =>
    exact .otherwise fun r hr hconcerns => none r hr ((hsame r hr).mpr hconcerns)

/-- A rule that is not both academic and accepting concerns a path with any content or with none. -/
theorem concerns_congr (h : rule.academic = true → ¬ rule.Accepts path) :
    rule.Concerns path content ↔ rule.Concerns path content' := by
  refine and_congr_right fun haccepts => ?_
  have hacademic : ¬ rule.academic = true := fun hacademic => h hacademic haccepts
  exact ⟨fun _ hac => absurd hac hacademic, fun _ hac => absurd hac hacademic⟩

/-- Behind a rule that is not academic and accepts the path, no rule matters. -/
theorem IsFirstMatch.of_undecided {before after : List Rule} (hplain : rule.academic = false)
    (haccepts : rule.Accepts path)
    (hbefore : ∀ r ∈ before, r.academic = true → ¬ r.Accepts path)
    (h : IsFirstMatch (before ++ rule :: after) path content c) :
    IsFirstMatch (before ++ rule :: after) path content' c := by
  induction before with
  | nil =>
    have hacademic : ¬ rule.academic = true := by rw [hplain]; decide
    have hconcerns : ∀ content, rule.Concerns path content :=
      fun _ => ⟨haccepts, fun hac => absurd hac hacademic⟩
    rcases isFirstMatch_cons_iff.mp h with ⟨-, hc⟩ | ⟨hfirst, -⟩
    · exact isFirstMatch_cons_iff.mpr (Or.inl ⟨hconcerns _, hc⟩)
    · exact absurd (hconcerns _) hfirst
  | cons r before ih =>
    obtain ⟨hr, hrest⟩ := List.forall_mem_cons.mp hbefore
    have hsame : r.Concerns path content ↔ r.Concerns path content' := concerns_congr hr
    rw [List.cons_append, isFirstMatch_cons_iff] at h ⊢
    rw [← hsame]
    exact h.imp_right fun h => ⟨h.1, ih hrest h.2⟩

end

/-! ### What a rule goes by -/

section

variable {rule : Rule} {path pattern : String}

theorem accepts_iff_of_fileName (h : rule.fileName = some pattern) :
    rule.Accepts path ↔ ∃ glob, Glob.read pattern = .ok glob ∧
      glob.accepts ((Path.fileName? (Path.withSlashes path)).getD "") = true := by
  constructor
  · intro haccepts
    cases haccepts with
    | fileName given read accepts =>
      rw [h, Option.some.injEq] at given
      exact ⟨_, given ▸ read, accepts⟩
    | path unnamed => rw [h] at unnamed; cases unnamed
    | extension unnamed => rw [h] at unnamed; cases unnamed
  · rintro ⟨glob, hread, haccepts⟩
    exact .fileName h hread haccepts

theorem accepts_iff_of_path (hname : rule.fileName = none) (h : rule.path = some pattern) :
    rule.Accepts path ↔ ∃ glob, Glob.read pattern = .ok glob ∧
      glob.accepts (Path.withSlashes path) = true := by
  constructor
  · intro haccepts
    cases haccepts with
    | fileName given => rw [hname] at given; cases given
    | path _ given read accepts =>
      rw [h, Option.some.injEq] at given
      exact ⟨_, given ▸ read, accepts⟩
    | extension _ unplaced => rw [h] at unplaced; cases unplaced
  · rintro ⟨glob, hread, haccepts⟩
    exact .path hname h hread haccepts

theorem accepts_iff_of_extensions (hname : rule.fileName = none) (hpath : rule.path = none) :
    rule.Accepts path ↔ ∃ ext, Path.extension? (Path.withSlashes path) = some ext ∧
      ∃ listed ∈ rule.extensions, comparedExtension listed = lowercase ext := by
  constructor
  · intro haccepts
    cases haccepts with
    | fileName given => rw [hname] at given; cases given
    | path _ given => rw [hpath] at given; cases given
    | extension _ _ given own same => exact ⟨_, own, _, given, same⟩
  · rintro ⟨ext, hown, listed, hgiven, hsame⟩
    exact .extension hname hpath hgiven hown hsame

end

/-! ### The walk along a table -/

theorem map_eq_ok {ε α β : Type} {x : Except ε α} {f : α → β} {b : β} (h : x.map f = .ok b) :
    ∃ a, x = .ok a ∧ f a = b := by
  cases x with
  | error fault => cases h
  | ok a => exact ⟨a, rfl, Except.ok.inj h⟩

/-- The test that is read from a rule accepts what the rule does. -/
theorem test_accepts_iff {rule : Rule} {test : Test} (h : rule.test = .ok test) (path : String) :
    test.accepts (Subject.ofPath path) = true ↔ rule.Accepts path := by
  rw [Rule.test] at h
  split at h
  · rename_i pattern hname
    obtain ⟨glob, hread, rfl⟩ := map_eq_ok h
    rw [accepts_iff_of_fileName hname, hread]
    simp [Test.accepts, Subject.ofPath]
  · rename_i pattern hname hpath
    obtain ⟨glob, hread, rfl⟩ := map_eq_ok h
    rw [accepts_iff_of_path hname hpath, hread]
    simp [Test.accepts, Subject.ofPath]
  · rename_i hname hpath
    cases h
    rw [accepts_iff_of_extensions hname hpath, Test.accepts, Subject.ofPath, Option.any_map,
      Option.any_eq_true]
    simp

/-- A table has an entry for each rule. -/
theorem forall₂_entry {rules : List Rule} {entries : List Entry}
    (h : rules.mapM Rule.entry = .ok entries) :
    List.Forall₂ (fun rule e => rule.entry = .ok e) rules entries := by
  induction rules generalizing entries with
  | nil =>
    cases h
    exact .nil
  | cons rule rules ih =>
    rw [List.mapM_cons] at h
    cases hentry : rule.entry with
    | error fault =>
      rw [hentry] at h
      cases h
    | ok e =>
      rw [hentry] at h
      obtain ⟨later, hlater, rfl⟩ := map_eq_ok h
      exact .cons hentry (ih hlater)

/-- The walk finds the first rule that concerns the file, as long as the verdict that it keeps is
the one on the content. -/
theorem isFirstMatch_kindAmong {rules : List Rule} {entries : List Entry}
    (h : List.Forall₂ (fun rule e => rule.entry = .ok e) rules entries) (path : String)
    {content : List UInt8} {verdict : Option Bool}
    (hverdict : ∀ v, verdict = some v → v = AcademicWriting.isAcademicFile content) :
    IsFirstMatch rules path content (Table.kindAmong (.ofPath path) content verdict entries) := by
  induction h generalizing verdict with
  | nil => exact .otherwise nofun
  | @cons rule e rules entries hentry _ ih =>
    obtain ⟨test, htest, rfl⟩ := map_eq_ok hentry
    have haccepts := test_accepts_iff htest path
    have hfound : verdict.getD (AcademicWriting.isAcademicFile content)
        = AcademicWriting.isAcademicFile content := by
      cases verdict with
      | none => rfl
      | some v => exact hverdict v rfl
    have hcontent : AcademicWriting.isAcademic (decodeLossy (content.take 8192))
        = AcademicWriting.isAcademicFile content := rfl
    rw [isFirstMatch_cons_iff, Rule.Concerns, ← haccepts, hcontent, Table.kindAmong]
    dsimp only
    rw [hfound]
    by_cases htaken : test.accepts (.ofPath path) = true
    · by_cases hacademic : rule.academic = true
      · by_cases hreads : AcademicWriting.isAcademicFile content = true
        · exact Or.inl ⟨⟨htaken, fun _ => hreads⟩, by simp [htaken, hreads]⟩
        · refine Or.inr ⟨fun h => hreads (h.2 hacademic), ?_⟩
          -- The rule has looked at the content, and the later ones go by what it found.
          have hkept : ∀ v, some (AcademicWriting.isAcademicFile content) = some v →
              v = AcademicWriting.isAcademicFile content := fun v hv => (Option.some.inj hv).symm
          simpa [htaken, hacademic, hreads] using ih hkept
      · exact Or.inl ⟨⟨htaken, fun h => absurd h hacademic⟩, by simp [htaken, hacademic]⟩
    · refine Or.inr ⟨fun h => htaken h.1, ?_⟩
      simpa [htaken] using ih hverdict

/-! ### The result -/

/-- **First match**: a table gives every file the kind of the first rule that concerns it. Contents
that begin alike are of one kind, and where a rule that is not academic accepts the path before any
academic rule does, all contents are. -/
theorem classify_first_match {rules : List Rule} {table : Table}
    (h : Table.ofRules rules = .ok table) (path : String) :
    (∀ content c, table.classify path content = c ↔ IsFirstMatch rules path content c) ∧
    (∀ content content', content.take 8192 = content'.take 8192 →
      table.classify path content = table.classify path content') ∧
    ∀ before rule after, rules = before ++ rule :: after → rule.academic = false →
      rule.Accepts path → (∀ r ∈ before, r.academic = true → ¬ r.Accepts path) →
      ∀ content content', table.classify path content = table.classify path content' := by
  obtain ⟨entries, hentries, rfl⟩ := map_eq_ok h
  have hfirst : ∀ content, IsFirstMatch rules path content
      (Table.classify ⟨entries⟩ path content) :=
    fun _ => isFirstMatch_kindAmong (forall₂_entry hentries) path nofun
  refine ⟨?_, ?_, ?_⟩
  · intro content c
    constructor
    · rintro rfl
      exact hfirst content
    · exact (hfirst content).unique
  · intro content content' hsame
    refine ((hfirst content).congr fun r _ => ?_).unique (hfirst content')
    rw [Rule.Concerns, Rule.Concerns, hsame]
  · rintro before rule after rfl hplain haccepts hbefore content content'
    exact ((hfirst content).of_undecided hplain haccepts hbefore).unique (hfirst content')

/-- Below `docs` an empty document is no paper, so the rule for the directory decides; of a file
with another extension the content does not matter. -/
theorem classify_first_match_document :
    let rules : List Rule :=
      [(Rule.forExtensions [".md"] .theory).whenAcademic, .forPath "docs/*" .governance]
    ∃ table, Table.ofRules rules = .ok table ∧
      IsFirstMatch rules "docs\\a.MD" [] .governance ∧
      ∀ content content', table.classify "docs/a" content = table.classify "docs/a" content' := by
  intro rules
  let glob : Glob := ⟨[.char 'd', .char 'o', .char 'c', .char 's', .char '/', .anyRun]⟩
  let entries : List Entry :=
    [⟨.extensions ["md"], .theory, true⟩, ⟨.path glob, .governance, false⟩]
  have hread : Glob.read "docs/*" = .ok glob := by cbv
  have hmd : comparedExtension ".md" = "md" := by decide +kernel
  have htable : Table.ofRules rules = .ok ⟨entries⟩ := by
    simp [rules, entries, Table.ofRules, Rule.entry, Rule.test, Rule.forExtensions, Rule.forPath,
      Rule.whenAcademic, hread, hmd]
    rfl
  have hunlisted : ¬ Rule.Accepts (Rule.whenAcademic (.forExtensions [".md"] .theory)) "docs/a" := by
    intro haccepts
    cases haccepts with
    | fileName given => cases given
    | path _ given => cases given
    | extension _ _ _ own =>
      have hnone : Path.extension? (Path.withSlashes "docs/a") = none := by decide +kernel
      rw [hnone] at own
      cases own
  refine ⟨⟨entries⟩, htable, ?_, ?_⟩
  · exact ((classify_first_match htable "docs\\a.MD").1 [] .governance).mp (by decide +kernel)
  · refine (classify_first_match htable "docs/a").2.2 [_] _ [] rfl rfl ?_ ?_
    · exact .path rfl rfl hread (by decide +kernel)
    · exact List.forall_mem_singleton.mpr fun _ => hunlisted

end CodeIndex.Classifier
