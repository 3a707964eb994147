import CodeIndex.FileTree.Resolve
import CodeIndex.Proofs.FileTree.Places
import CodeIndex.Proofs.Text.Octets
import Mathlib.Data.List.Basic
/-!
# Paths of places

The path of a place leads there as long as directories stand on the way: no link is met
(`resolve_pathOf`, `contentOf_eq_ok`). It leads nowhere when a directory on the way does not have
the next name (`contentOf_eq_notFound`).
-/

namespace CodeIndex

variable {d e here : Directory} {node x : Node} {name : String}
  {place front path path' pending more : List String} {links : Nat}

/-! ### One path behind another -/

theorem Node.exists_of_at?_directory (h : node.at? path = some (.directory e)) :
    ∃ d, node = .directory d := by
  cases node with
  | directory d => exact ⟨d, rfl⟩
  | file content => cases path <;> cases h
  | link target => cases path <;> cases h

namespace Directory

open CodeIndex.Text

theorem at?_append : d.at? (path ++ path') = (d.at? path).bind (·.at? path') := by
  induction path generalizing d with
  | nil => rfl
  | cons n path ih =>
    rw [List.cons_append, at?_eq_bind, at?_eq_bind, Option.bind_assoc]
    refine Option.bind_congr fun node _ => ?_
    cases node with
    | directory entries => exact ih
    | file content => cases path <;> rfl
    | link target => cases path <;> rfl

/-- In front of a directory stands a directory that has the next name. -/
theorem exists_of_at?_append_cons (h : d.at? (path ++ name :: path') = some (.directory e)) :
    ∃ here inner, d.at? path = some (.directory here) ∧ here.get? name = some (.directory inner) := by
  rw [at?_append] at h
  obtain ⟨node, hnode, hat⟩ := Option.bind_eq_some_iff.mp h
  cases node with
  | directory here =>
    have hbelow : here.at? (name :: path') = some (.directory e) := hat
    rw [at?_eq_bind] at hbelow
    obtain ⟨next, hget, hnext⟩ := Option.bind_eq_some_iff.mp hbelow
    obtain ⟨inner, rfl⟩ := Node.exists_of_at?_directory hnext
    exact ⟨here, inner, hnode, hget⟩
  | file content => cases hat
  | link target => cases hat

/-- Behind the place of a directory stands what the next name stands for. -/
theorem at?_concat (hat : d.at? place = some (.directory here))
    (hget : here.get? name = some node) : d.at? (place ++ [name]) = some node := by
  have hnode : node.at? [] = some node := by
    cases node <;> rfl
  rw [at?_append, hat, Option.bind_some, Node.at?, at?_eq_bind, hget, Option.bind_some, hnode]

/-! ### Steps -/

theorem resolveFrom_directory (hat : d.at? place = some (.directory here)) (hname : Path.IsName name)
    (hget : here.get? name = some (.directory e)) :
    resolveFrom d links place (name :: pending) = resolveFrom d links (place ++ [name]) pending := by
  rw [resolveFrom, hat]
  simp [hname.2.1, hname.2.2.1, hget]

theorem resolveFrom_missing (hat : d.at? place = some (.directory here)) (hname : Path.IsName name)
    (hget : here.get? name = none) :
    resolveFrom d links place (name :: pending) = .error .notFound := by
  rw [resolveFrom, hat]
  simp [hname.2.1, hname.2.2.1, hget]

/-- Names of directories are taken one by one. -/
theorem resolveFrom_append (hnames : ∀ n ∈ front, Path.IsName n)
    (hat : d.at? (place ++ front) = some (.directory e)) :
    resolveFrom d links place (front ++ pending) = resolveFrom d links (place ++ front) pending := by
  induction front generalizing place with
  | nil => rw [List.nil_append, List.append_nil]
  | cons n front ih =>
    obtain ⟨hname, hrest⟩ := List.forall_mem_cons.mp hnames
    obtain ⟨here, inner, hhere, hget⟩ := exists_of_at?_append_cons hat
    rw [List.append_cons] at hat ⊢
    rw [List.cons_append, resolveFrom_directory hhere hname hget, ih hrest hat]

theorem steps_pathOf (hne : path ≠ []) (h : ∀ n ∈ path, Path.IsName n) :
    steps (pathOf path) = path := by
  have hchars : (pathOf path).toList = '/' :: ("/".intercalate path).toList := by
    rw [pathOf, String.toList_append]
    rfl
  have hparts : (splitChar '/' (pathOf path).toList).map String.ofList = "" :: path := by
    rw [hchars, splitChar, if_pos rfl, List.map_cons, ← Path.parts,
      Path.parts_intercalate hne fun n hn => (h n hn).2.2.2]
  have hkept : ("" :: path).filter (· != "") = path := by
    rw [List.filter_cons_of_neg (by decide), List.filter_eq_self]
    exact fun n hn => bne_iff_ne.mpr (h n hn).1
  have hlast : (("" :: path).getLast? == some "") = false := by
    obtain ⟨front, last, rfl⟩ := (List.eq_nil_or_concat' path).resolve_left hne
    rw [← List.cons_append, List.getLast?_concat]
    exact beq_eq_false_iff_ne.mpr fun heq => (h last (by simp)).1 (Option.some.inj heq)
  rw [steps, hparts, hkept, hlast, if_neg Bool.false_ne_true, List.append_nil]

/-! ### Paths of places -/

theorem resolve_eq_resolveFrom (hne : path ≠ []) (h : ∀ n ∈ path, Path.IsName n) :
    d.resolve (pathOf path) = resolveFrom d maxLinks [] path := by
  have hpath : pathOf path ≠ "" := by
    intro hempty
    have hchars := congrArg String.toList hempty
    rw [pathOf, String.toList_append] at hchars
    cases hchars
  rw [resolve, if_neg hpath, steps_pathOf hne h]

/-- The path of a directory leads to it. -/
theorem resolve_pathOf (wf : d.IsWellFormed) (hne : place ≠ [])
    (hat : d.at? place = some (.directory e)) :
    d.resolve (pathOf place) = .ok (place, .directory e) := by
  have hsteps : resolveFrom d maxLinks [] (place ++ []) = resolveFrom d maxLinks ([] ++ place) [] :=
    resolveFrom_append (wf.isName hat) hat
  rw [List.append_nil, List.nil_append] at hsteps
  rw [resolve_eq_resolveFrom hne (wf.isName hat), hsteps, resolveFrom, hat]

/-- The path of a file gives its bytes. -/
theorem contentOf_eq_ok (wf : d.IsWellFormed) (hat : d.at? place = some (.directory here))
    {content : List UInt8} (hget : here.get? name = some (.file content)) :
    d.contentOf (pathOf (place ++ [name])) = .ok content := by
  have hfile := at?_concat hat hget
  have hnames := wf.isName hfile
  have hname := hnames name (by simp)
  have hstep : resolveFrom d maxLinks place [name] = .ok (place ++ [name], .file content) := by
    rw [resolveFrom, hat]
    simp [hname.2.1, hname.2.2.1, hget, resolveFrom, hfile]
  rw [contentOf, resolve_eq_resolveFrom (by simp) hnames, resolveFrom_append (wf.isName hat) hat,
    List.nil_append, hstep]

theorem readText?_eq_some (wf : d.IsWellFormed) (hat : d.at? place = some (.directory here))
    (name : String) {text file : String} (hget : here.get? name = some (.file (octets text)))
    (hfile : file = pathOf (place ++ [name])) : d.readText? file = some text := by
  rw [hfile, readText?, contentOf_eq_ok wf hat hget]
  exact fromUTF8?_octets text

/-- The path of a place below a directory without the next name leads nowhere. -/
theorem contentOf_eq_notFound (wf : d.IsWellFormed) (hat : d.at? place = some (.directory here))
    (hmissing : name ∉ here.names) (hnames : ∀ n ∈ name :: more, Path.IsName n) :
    d.contentOf (pathOf (place ++ name :: more)) = .error .notFound := by
  have hall : ∀ n ∈ place ++ name :: more, Path.IsName n :=
    List.forall_mem_append.mpr ⟨wf.isName hat, hnames⟩
  have hname := hnames name List.mem_cons_self
  rw [contentOf, resolve_eq_resolveFrom (by simp) hall, resolveFrom_append (wf.isName hat) hat,
    List.nil_append, resolveFrom_missing hat hname (get?_eq_none_of_not_mem hmissing)]

theorem readText?_eq_none (wf : d.IsWellFormed) (hat : d.at? place = some (.directory here))
    (name : String) (more : List String) {file : String} (hmissing : name ∉ here.names)
    (hnames : ∀ n ∈ name :: more, Path.IsName n) (hfile : file = pathOf (place ++ name :: more)) :
    d.readText? file = none := by
  rw [hfile, readText?, contentOf_eq_notFound wf hat hmissing hnames]
  rfl

end Directory

end CodeIndex
