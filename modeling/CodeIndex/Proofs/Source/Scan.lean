import CodeIndex.Proofs.FileTree.Resolve
import CodeIndex.Proofs.Text.Order
import CodeIndex.Source.Scan
import Mathlib.Data.List.Nodup
/-!
# What a search finds

`scan_exact`: without ignore files a search finds exactly the files that are wanted (`IsWanted`),
each once, in the order of the octets of their paths.

The walk decides on an entry by its own name, and it decides on directories before it goes into
them. So what it meets are the files on whose way every name is admitted (`IsReached`). What the
root is called does not matter, since only names below it are looked at.
-/

namespace CodeIndex.Source

open CodeIndex.Ignore CodeIndex.Text

/-! ### Silent layers -/

/-- The directory has no rules. -/
def IsSilent (l : Layer) : Prop :=
  l.general = [] ∧ l.versioned = [] ∧ l.excluded = []

theorem nearest?_eq_none {layers : List Layer} {rules : Layer → List Rule} {place : List String}
    {isDirectory : Bool} (h : ∀ l ∈ layers, rules l = []) :
    nearest? layers rules place isDirectory = none := by
  rw [nearest?, List.findSome?_eq_none_iff]
  intro l hl
  rw [h l hl]
  rfl

theorem judge?_eq_none {layers : List Layer} {place : List String} {isDirectory : Bool}
    (h : ∀ l ∈ layers, IsSilent l) : judge? layers place isDirectory = none := by
  rw [judge?, nearest?_eq_none fun l hl => (h l hl).1, nearest?_eq_none fun l hl => (h l hl).2.1,
    nearest?_eq_none fun l hl => (h l hl).2.2]
  rfl

variable {options : Config.Source} {layerAt : LayerAt} {layers : List Layer}
  {place below : List String} {name : String} {d rest : Directory} {node : Node} {f : Found}

/-- The name does not hide an entry, or hidden entries are searched as well. -/
def IsShown (options : Config.Source) (name : String) : Prop :=
  options.excludeHidden = true → name.toList.head? ≠ some '.'

theorem visits_iff (h : ∀ l ∈ layers, IsSilent l) (isDirectory : Bool) :
    visits options layers place name isDirectory = true ↔
      IsShown options name ∧ (isDirectory = true → name ∉ options.excludeDirs) := by
  rw [visits, judge?_eq_none h, IsShown]
  cases options.excludeHidden <;> cases isDirectory <;> simp [isHidden]

/-! ### What the walk meets -/

/-- The walk gets to the file that these names lead to: no name is hidden, and no directory on the
way is excluded. -/
structure IsReached (options : Config.Source) (below : List String) : Prop where
  shown : ∀ name ∈ below, IsShown options name
  searched : ∀ name ∈ below.dropLast, name ∉ options.excludeDirs

theorem isReached_singleton : IsReached options [name] ↔ IsShown options name :=
  ⟨fun h => h.shown name List.mem_cons_self,
    fun h => ⟨List.forall_mem_singleton.mpr h, List.forall_mem_nil _⟩⟩

theorem isReached_cons (hne : below ≠ []) :
    IsReached options (name :: below) ↔
      (IsShown options name ∧ name ∉ options.excludeDirs) ∧ IsReached options below := by
  constructor
  · rintro ⟨hshown, hsearched⟩
    rw [List.dropLast_cons_of_ne_nil hne] at hsearched
    rw [List.forall_mem_cons] at hshown hsearched
    exact ⟨⟨hshown.1, hsearched.1⟩, hshown.2, hsearched.2⟩
  · rintro ⟨⟨hname, hexcluded⟩, hshown, hsearched⟩
    refine ⟨List.forall_mem_cons.mpr ⟨hname, hshown⟩, ?_⟩
    rw [List.dropLast_cons_of_ne_nil hne]
    exact List.forall_mem_cons.mpr ⟨hexcluded, hsearched⟩

/-- The file stands somewhere among some entries at `place`, and the walk gets there. -/
def IsMet (options : Config.Source) (place : List String) (d : Directory) (f : Found) : Prop :=
  ∃ below, f.place = place ++ below ∧ d.at? below = some (.file f.content) ∧
    IsReached options below

/-- The file stands at an entry or inside it, and the walk gets there. -/
def IsMetAt (options : Config.Source) (place : List String) (name : String) (node : Node)
    (f : Found) : Prop :=
  ∃ inner, f.place = place ++ name :: inner ∧ node.at? inner = some (.file f.content) ∧
    IsReached options (name :: inner)

/-- The file stands at the first entry or inside it, or among the others. -/
theorem isMet_cons_iff (node : Node) (hnew : name ∉ rest.names) :
    IsMet options place (.cons name node rest) f ↔
      IsMetAt options place name node f ∨ IsMet options place rest f := by
  constructor
  · rintro ⟨below, hplace, hat, hreached⟩
    have hne := Directory.ne_nil_of_at?_file hat
    rcases (Directory.at?_cons_iff hnew hne).mp hat with ⟨inner, rfl, hinner⟩ | hrest
    · exact Or.inl ⟨inner, hplace, hinner, hreached⟩
    · exact Or.inr ⟨below, hplace, hrest, hreached⟩
  · rintro (⟨inner, hplace, hinner, hreached⟩ | ⟨below, hplace, hrest, hreached⟩)
    · refine ⟨name :: inner, hplace, ?_, hreached⟩
      exact (Directory.at?_cons_iff hnew (List.cons_ne_nil _ _)).mpr (Or.inl ⟨inner, rfl, hinner⟩)
    · have hne := Directory.ne_nil_of_at?_file hrest
      exact ⟨below, hplace, (Directory.at?_cons_iff hnew hne).mpr (Or.inr hrest), hreached⟩

theorem isMetAt_file_iff {content : List UInt8} :
    IsMetAt options place name (.file content) f ↔
      IsShown options name ∧ f = ⟨place ++ [name], content⟩ := by
  constructor
  · rintro ⟨inner, hplace, hat, hreached⟩
    cases inner with
    | nil =>
      cases f
      cases hat
      cases hplace
      exact ⟨isReached_singleton.mp hreached, rfl⟩
    | cons => cases hat
  · rintro ⟨hshown, rfl⟩
    exact ⟨[], rfl, rfl, isReached_singleton.mpr hshown⟩

theorem not_isMetAt_link {target : String} : ¬ IsMetAt options place name (.link target) f := by
  rintro ⟨inner, -, hat, -⟩
  cases inner <;> cases hat

theorem isMetAt_directory_iff {entries : Directory} :
    IsMetAt options place name (.directory entries) f ↔
      (IsShown options name ∧ name ∉ options.excludeDirs) ∧
        IsMet options (place ++ [name]) entries f := by
  constructor
  · rintro ⟨inner, hplace, hat, hreached⟩
    obtain ⟨hname, hreached⟩ := (isReached_cons (Directory.ne_nil_of_at?_file hat)).mp hreached
    exact ⟨hname, inner, by rw [hplace, List.append_assoc, List.singleton_append], hat, hreached⟩
  · rintro ⟨hname, inner, hplace, hat, hreached⟩
    refine ⟨inner, ?_, hat, ?_⟩
    · rw [hplace, List.append_assoc, List.singleton_append]
    · exact (isReached_cons (Directory.ne_nil_of_at?_file hat)).mpr ⟨hname, hreached⟩

/-- No directory below has rules. -/
def AreSilent (layerAt : LayerAt) (place : List String) (d : Directory) : Prop :=
  ∀ below entries, below ≠ [] → d.at? below = some (.directory entries) →
    IsSilent (layerAt (place ++ below))

theorem AreSilent.others (node : Node) (h : AreSilent layerAt place (.cons name node rest))
    (hnew : name ∉ rest.names) : AreSilent layerAt place rest :=
  fun below entries hne hat =>
    h below entries hne ((Directory.at?_cons_iff hnew hne).mpr (Or.inr hat))

theorem AreSilent.inside {entries : Directory}
    (h : AreSilent layerAt place (.cons name (.directory entries) rest)) :
    IsSilent (layerAt (place ++ [name])) ∧ AreSilent layerAt (place ++ [name]) entries := by
  have hinner : ∀ inner found, entries.at? inner = some (.directory found) →
      IsSilent (layerAt (place ++ name :: inner)) := by
    intro inner found hat
    refine h (name :: inner) found (List.cons_ne_nil _ _) ?_
    rw [Directory.at?_cons, if_pos rfl]
    exact hat
  refine ⟨hinner [] entries rfl, fun below found _ hat => ?_⟩
  rw [List.append_assoc, List.singleton_append]
  exact hinner below found hat

/-- Without rules the walk meets every file that it gets to by its names. -/
theorem mem_walk_iff (wf : d.IsWellFormed) (hlayers : ∀ l ∈ layers, IsSilent l)
    (hsilent : AreSilent layerAt place d) :
    f ∈ walk options layerAt layers place d ↔ IsMet options place d f := by
  induction d generalizing place layers with
  | empty =>
    refine iff_of_false List.not_mem_nil ?_
    rintro ⟨below, -, hat, -⟩
    cases below <;> cases hat
  | file name content rest ih =>
    obtain ⟨-, hnew, hrest⟩ := wf
    have hall : AreSilent layerAt place (.cons name (.file content) rest) := hsilent
    rw [walk, List.mem_append, ih hrest hlayers (hall.others _ hnew)]
    refine Iff.trans (or_congr_left ?_) (isMet_cons_iff (.file content) hnew).symm
    rw [isMetAt_file_iff, List.mem_ite_nil_right, List.mem_singleton, visits_iff hlayers]
    simp
  | link name target rest ih =>
    obtain ⟨-, hnew, hrest⟩ := wf
    have hall : AreSilent layerAt place (.cons name (.link target) rest) := hsilent
    rw [walk, ih hrest hlayers (hall.others _ hnew)]
    exact ((isMet_cons_iff (.link target) hnew).trans (or_iff_right not_isMetAt_link)).symm
  | inside name entries rest ihInner ih =>
    obtain ⟨-, hnew, hentries, hrest⟩ := wf
    have hall : AreSilent layerAt place (.cons name (.directory entries) rest) := hsilent
    obtain ⟨hlayer, hinside⟩ := hall.inside
    -- Inside the directory there is one more layer, which is silent as well.
    have hinner := ihInner hentries (List.forall_mem_cons.mpr ⟨hlayer, hlayers⟩) hinside
    rw [walk, List.mem_append, ih hrest hlayers (hall.others _ hnew)]
    refine Iff.trans (or_congr_left ?_) (isMet_cons_iff (.directory entries) hnew).symm
    rw [isMetAt_directory_iff, List.mem_ite_nil_right, visits_iff hlayers, hinner]
    simp

/-! ### Every file once -/

/-- A file of the walk stands at one of the entries or inside it. -/
theorem place_of_mem_walk (h : f ∈ walk options layerAt layers place d) :
    ∃ name ∈ d.names, ∃ inner, f.place = place ++ name :: inner := by
  induction d generalizing place layers with
  | empty => cases h
  | file name content rest ih =>
    rw [walk, List.mem_append] at h
    rcases h with h | h
    · split at h
      · obtain rfl := List.mem_singleton.mp h
        exact ⟨name, List.mem_cons_self, [], rfl⟩
      · cases h
    · obtain ⟨n, hn, hplace⟩ := ih h
      exact ⟨n, List.mem_cons_of_mem _ hn, hplace⟩
  | link name target rest ih =>
    obtain ⟨n, hn, hplace⟩ := ih h
    exact ⟨n, List.mem_cons_of_mem _ hn, hplace⟩
  | inside name entries rest ihInner ih =>
    rw [walk, List.mem_append] at h
    rcases h with h | h
    · split at h
      · obtain ⟨n, -, inner, hplace⟩ := ihInner h
        refine ⟨name, List.mem_cons_self, n :: inner, ?_⟩
        rw [hplace, List.append_assoc, List.singleton_append]
      · cases h
    · obtain ⟨n, hn, hplace⟩ := ih h
      exact ⟨n, List.mem_cons_of_mem _ hn, hplace⟩

/-- What is found at an entry is found nowhere among the others. -/
theorem nodup_append_walk {first : List Found} (hfirst : (first.map Found.place).Nodup)
    (hplaces : ∀ f ∈ first, ∃ inner, f.place = place ++ name :: inner)
    (hnew : name ∉ rest.names)
    (hrest : ((walk options layerAt layers place rest).map Found.place).Nodup) :
    ((first ++ walk options layerAt layers place rest).map Found.place).Nodup := by
  rw [List.map_append, List.nodup_append]
  refine ⟨hfirst, hrest, fun p hp p' hp' heq => ?_⟩
  obtain ⟨f, hf, rfl⟩ := List.mem_map.mp hp
  obtain ⟨f', hf', rfl⟩ := List.mem_map.mp hp'
  obtain ⟨inner, hplace⟩ := hplaces f hf
  obtain ⟨n, hn, inner', hplace'⟩ := place_of_mem_walk hf'
  rw [hplace, hplace'] at heq
  obtain ⟨rfl, -⟩ := List.cons.inj (List.append_cancel_left heq)
  exact hnew hn

theorem nodup_walk (wf : d.IsWellFormed) :
    ((walk options layerAt layers place d).map Found.place).Nodup := by
  induction d generalizing place layers with
  | empty => exact List.nodup_nil
  | file name content rest ih =>
    obtain ⟨-, hnew, hrest⟩ := wf
    rw [walk]
    refine nodup_append_walk ?_ (fun f hf => ?_) hnew (ih hrest)
    · split
      · exact List.nodup_singleton _
      · exact List.nodup_nil
    · split at hf
      · obtain rfl := List.mem_singleton.mp hf
        exact ⟨[], rfl⟩
      · cases hf
  | link name target rest ih => exact ih wf.2.2
  | inside name entries rest ihInner ih =>
    obtain ⟨-, hnew, hentries, hrest⟩ := wf
    rw [walk]
    refine nodup_append_walk ?_ (fun f hf => ?_) hnew (ih hrest)
    · split
      · exact ihInner hentries
      · exact List.nodup_nil
    · split at hf
      · obtain ⟨n, -, inner, hplace⟩ := place_of_mem_walk hf
        exact ⟨n :: inner, by rw [hplace, List.append_assoc, List.singleton_append]⟩
      · cases hf

/-! ### Files that are wanted -/

/-- The extension of a file with this name is not one of a binary file. -/
def HasTextName (name : String) : Prop :=
  ∀ stem ext, name = stem ++ "." ++ ext → stem ≠ "" → '.' ∉ ext.toList →
    asciiLowercase ext ∉ binaryExtensions

/-- The file stands in the tree where the walk gets to it; it is small enough, does not have the
extension of a binary file, and has no NUL among its first 8192 octets. -/
structure IsWanted (options : Config.Source) (entries : Directory) (f : Found) : Prop where
  stands : entries.at? f.place = some (.file f.content)
  reached : IsReached options f.place
  small : f.content.length ≤ options.maxFileBytes
  named : ∀ name, f.place.getLast? = some name → HasTextName name
  plain : 0 ∉ f.content.take 8192

theorem hasBinaryExtension_eq_false_iff {front : List String}
    (h : ∀ n ∈ front ++ [name], Path.IsName n) :
    hasBinaryExtension ("/".intercalate (front ++ [name])) = false ↔ HasTextName name := by
  rw [hasBinaryExtension, Path.extension?_intercalate h, Option.any_eq_false]
  constructor
  · intro hnone stem ext hname hstem hext
    have hown := Path.extensionOfName?_eq_some_iff.mpr ⟨stem, hname, hstem, hext⟩
    simpa using hnone ext hown
  · intro htext ext hown
    obtain ⟨stem, hname, hstem, hext⟩ := Path.extensionOfName?_eq_some_iff.mp hown
    simpa using htext stem ext hname hstem hext

theorem isEligible_iff (hne : f.place ≠ []) (h : ∀ n ∈ f.place, Path.IsName n) :
    f.isEligible options = true ↔
      f.content.length ≤ options.maxFileBytes ∧
      (∀ name, f.place.getLast? = some name → HasTextName name) ∧ 0 ∉ f.content.take 8192 := by
  obtain ⟨front, name, hplace⟩ := List.eq_nil_or_concat' f.place |>.resolve_left hne
  rw [hplace] at h
  rw [Found.isEligible, Found.size, Found.path, hplace, List.getLast?_concat]
  have hbinary := hasBinaryExtension_eq_false_iff h
  simp [← hbinary, looksBinary, sniffedBytes, and_assoc]

theorem isMet_nil_iff :
    IsMet options [] d f ↔ d.at? f.place = some (.file f.content) ∧ IsReached options f.place := by
  constructor
  · rintro ⟨below, rfl, hat, hreached⟩
    exact ⟨hat, hreached⟩
  · rintro ⟨hat, hreached⟩
    exact ⟨f.place, rfl, hat, hreached⟩

theorem isWanted_iff (wf : d.IsWellFormed) :
    IsWanted options d f ↔ IsMet options [] d f ∧ f.isEligible options = true := by
  rw [isMet_nil_iff]
  constructor
  · rintro ⟨hat, hreached, hsmall, hnamed, hplain⟩
    refine ⟨⟨hat, hreached⟩, ?_⟩
    rw [isEligible_iff (Directory.ne_nil_of_at?_file hat) (wf.isName hat)]
    exact ⟨hsmall, hnamed, hplain⟩
  · rintro ⟨⟨hat, hreached⟩, heligible⟩
    obtain ⟨hsmall, hnamed, hplain⟩ :=
      (isEligible_iff (Directory.ne_nil_of_at?_file hat) (wf.isName hat)).mp heligible
    exact ⟨hat, hreached, hsmall, hnamed, hplain⟩

/-! ### The result -/

/-- The files that hold rules on what to ignore, as a directory names them. -/
def ignoreFiles : List String :=
  [".ignore", ".gitignore", ".git/info/exclude"]

/-- No directory of the tree has a file with rules. -/
def HasNoIgnoreFiles (world : Directory) (root : List String) (entries : Directory) : Prop :=
  ∀ place d, entries.at? place = some (.directory d) → ∀ name ∈ ignoreFiles, ∀ bytes,
    world.contentOf (Directory.pathOf (root ++ place ++ [name])) ≠ .ok bytes

theorem HasNoIgnoreFiles.isSilent {world entries : Directory} {root : List String}
    (h : HasNoIgnoreFiles world root entries) (hat : entries.at? place = some (.directory d)) :
    IsSilent (layerIn world root place) := by
  have hmissing : ∀ name ∈ ignoreFiles, ∃ cause,
      world.contentOf (Directory.pathOf (root ++ place ++ [name])) = .error cause := by
    intro name hname
    cases hcontent : world.contentOf (Directory.pathOf (root ++ place ++ [name])) with
    | error cause => exact ⟨cause, rfl⟩
    | ok bytes => exact absurd hcontent (h place d hat name hname bytes)
  obtain ⟨_, hignore⟩ := hmissing ".ignore" (by simp [ignoreFiles])
  obtain ⟨_, hgitignore⟩ := hmissing ".gitignore" (by simp [ignoreFiles])
  obtain ⟨_, hexclude⟩ := hmissing ".git/info/exclude" (by simp [ignoreFiles])
  simp only [IsSilent, layerIn, hignore, hgitignore, hexclude, and_self]

/-- A tree in which nothing is called like one of these files, or like the directory of the last
one, has none of them. -/
theorem hasNoIgnoreFiles_of_not_mem {world entries : Directory} {root : List String}
    (wf : world.IsWellFormed) (hroot : world.at? root = some (.directory entries))
    (h : ∀ place d, entries.at? place = some (.directory d) →
      ".ignore" ∉ d.names ∧ ".gitignore" ∉ d.names ∧ ".git" ∉ d.names) :
    HasNoIgnoreFiles world root entries := by
  intro place d hat name hname bytes
  obtain ⟨hignore, hgitignore, hgit⟩ := h place d hat
  have hplace : world.at? (root ++ place) = some (.directory d) := by
    rw [Directory.at?_append, hroot]
    exact hat
  have hexclude : Directory.pathOf (root ++ place ++ [".git/info/exclude"])
      = Directory.pathOf (root ++ place ++ [".git", "info", "exclude"]) := by
    have hlast : ".git/info/exclude" = "/".intercalate [".git", "info", "exclude"] := by
      decide +kernel
    rw [Directory.pathOf, hlast, Path.intercalate_append_intercalate _ (List.cons_ne_nil _ _),
      Directory.pathOf]
  have hmissing : world.contentOf (Directory.pathOf (root ++ place ++ [name])) = .error .notFound := by
    rw [ignoreFiles, List.mem_cons, List.mem_cons, List.mem_singleton] at hname
    rcases hname with rfl | rfl | rfl
    · exact Directory.contentOf_eq_notFound wf hplace hignore (by decide +kernel)
    · exact Directory.contentOf_eq_notFound wf hplace hgitignore (by decide +kernel)
    · rw [hexclude]
      exact Directory.contentOf_eq_notFound wf hplace hgit (by decide +kernel)
  intro hbytes
  rw [hmissing] at hbytes
  cases hbytes

/-- Files of a well-formed tree have different paths. -/
theorem nodup_map_path {found : List Found} (wf : d.IsWellFormed)
    (hnodup : (found.map Found.place).Nodup)
    (hat : ∀ f ∈ found, d.at? f.place = some (.file f.content)) :
    (found.map Found.path).Nodup := by
  refine List.Nodup.map_on (fun f hf g hg heq => ?_) hnodup.of_map
  have hslash : ∀ f ∈ found, ∀ n ∈ f.place, '/' ∉ n.toList :=
    fun f hf n hn => (wf.isName (hat f hf) n hn).2.2.2
  refine List.inj_on_of_nodup_map hnodup hf hg ?_
  exact Path.intercalate_inj (Directory.ne_nil_of_at?_file (hat f hf))
    (Directory.ne_nil_of_at?_file (hat g hg)) (hslash f hf) (hslash g hg) heq

/-- **Exact search**: in a tree without ignore files a search finds the files that are wanted and no
others, each once, in the order of the octets of their paths below the root. The path of the root
may be any that leads to a directory, also one with a hidden or excluded name. -/
theorem scan_exact {options : Config.Source} {world entries : Directory} {path : String}
    {root : List String} (hroot : world.resolve path = .ok (root, .directory entries))
    (wf : entries.IsWellFormed) (hnone : HasNoIgnoreFiles world root entries) :
    ∃ found, scan options world path = .ok found ∧
      found.Pairwise (fun f g => octets f.path < octets g.path) ∧
      ∀ f, f ∈ found ↔ IsWanted options entries f := by
  have hsilent : AreSilent (layerIn world root) [] entries :=
    fun below d _ hat => hnone.isSilent hat
  have hhere : entries.at? [] = some (.directory entries) := rfl
  have hlayers : ∀ l ∈ [layerIn world root []], IsSilent l :=
    List.forall_mem_singleton.mpr (hnone.isSilent hhere)
  let met := (walk options (layerIn world root) [layerIn world root []] [] entries).filter
    (Found.isEligible options)
  have hmem : ∀ f, f ∈ met ↔ IsWanted options entries f := by
    intro f
    rw [isWanted_iff wf, List.mem_filter, mem_walk_iff wf hlayers hsilent]
  have hpaths : (met.map Found.path).Nodup := by
    refine nodup_map_path wf ?_ fun f hf => ((hmem f).mp hf).stands
    exact (nodup_walk wf).sublist (List.filter_sublist.map _)
  refine ⟨byPath met, by rw [scan, hroot]; rfl, pairwise_octets_mergeSort Found.path hpaths, ?_⟩
  intro f
  rw [byPath, List.mem_mergeSort]
  exact hmem f

/-- Below a root with a hidden name that is excluded elsewhere, the text is found and the picture is
not. -/
theorem scan_exact_excluded_root :
    let entries : Directory := .file "a.rs" [97] (.file "logo.PNG" [98] .empty)
    ∃ found, scan {} (.inside ".git" entries .empty) "/.git" = .ok found ∧
      ⟨["a.rs"], [97]⟩ ∈ found ∧ ⟨["logo.PNG"], [98]⟩ ∉ found := by
  intro entries
  have wf : entries.IsWellFormed := by decide +kernel
  have wfWorld : (Directory.inside ".git" entries .empty).IsWellFormed := by decide +kernel
  have hat : (Directory.cons ".git" (.directory entries) .empty).at? [".git"]
      = some (.directory entries) := by
    rw [Directory.at?_cons, if_pos rfl]
    rfl
  have hpath : Directory.pathOf [".git"] = "/.git" := by decide +kernel
  have hroot := Directory.resolve_pathOf wfWorld (List.cons_ne_nil _ _) hat
  rw [hpath] at hroot
  have hnone : HasNoIgnoreFiles (.inside ".git" entries .empty) [".git"] entries := by
    refine hasNoIgnoreFiles_of_not_mem wfWorld hat fun place d hd => ?_
    cases place with
    | nil =>
      cases hd
      decide +kernel
    | cons n path =>
      -- There is no directory among the entries.
      rw [Directory.at?_eq_bind] at hd
      obtain ⟨node, hget, hnode⟩ := Option.bind_eq_some_iff.mp hd
      obtain ⟨inner, rfl⟩ := Node.exists_of_at?_directory hnode
      simpa [entries, Directory.toList] using Directory.mem_toList_of_get? hget
  have hexact : ∃ found, scan {} (.inside ".git" entries .empty) "/.git" = .ok found ∧ _ ∧ _ :=
    scan_exact hroot wf hnone
  obtain ⟨found, hscan, -, hfound⟩ := hexact
  refine ⟨found, hscan, ?_, ?_⟩
  · rw [hfound, isWanted_iff wf, isMet_nil_iff]
    exact ⟨⟨rfl, isReached_singleton.mpr fun _ => by decide +kernel⟩, by decide +kernel⟩
  · rw [hfound]
    rintro ⟨-, -, -, hnamed, -⟩
    exact hnamed "logo.PNG" rfl "logo" "PNG" rfl (by decide) (by decide) (by decide +kernel)

end CodeIndex.Source
