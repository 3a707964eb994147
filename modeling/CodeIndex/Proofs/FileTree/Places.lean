import CodeIndex.FileTree.Basic
import CodeIndex.Proofs.Path
/-!
# Places in a file tree

In a tree as a file system has it, the entries of a directory have different names, and what they
are called can stand in a path (`Directory.IsWellFormed`). Then what stands at a place is found by
its first name among the entries: at the first entry, or among those behind it (`at?_cons_iff`).
-/

namespace CodeIndex

/-- What stands at a path that begins at something. -/
def Node.at? : Node → List String → Option Node
  | .directory entries, path => entries.at? path
  | node, [] => some node
  | _, _ :: _ => none

namespace Directory

/-! ### Well-formed trees -/

/-- The names of the entries. -/
def names (d : Directory) : List String :=
  d.toList.map Prod.fst

/-- The names in each directory of the tree are possible and distinct. -/
def IsWellFormed : Directory → Prop
  | empty => True
  | file name _ rest => Path.IsName name ∧ name ∉ rest.names ∧ rest.IsWellFormed
  | link name _ rest => Path.IsName name ∧ name ∉ rest.names ∧ rest.IsWellFormed
  | inside name entries rest =>
    Path.IsName name ∧ name ∉ rest.names ∧ entries.IsWellFormed ∧ rest.IsWellFormed

instance decidableIsWellFormed : (d : Directory) → Decidable d.IsWellFormed
  | empty => inferInstanceAs (Decidable True)
  | file _ _ rest =>
    have := decidableIsWellFormed rest
    inferInstanceAs (Decidable (_ ∧ _ ∧ _))
  | link _ _ rest =>
    have := decidableIsWellFormed rest
    inferInstanceAs (Decidable (_ ∧ _ ∧ _))
  | inside _ entries rest =>
    have := decidableIsWellFormed entries
    have := decidableIsWellFormed rest
    inferInstanceAs (Decidable (_ ∧ _ ∧ _ ∧ _))

variable {d rest : Directory} {name : String} {node x : Node} {path : List String}
  {content : List UInt8}

/-! ### Finding entries -/

theorem get?_cons (n : String) :
    (cons name node rest).get? n = if n = name then some node else rest.get? n := by
  have hlist : (cons name node rest).toList = (name, node) :: rest.toList := by
    cases node <;> rfl
  rw [get?, hlist, List.lookup_cons]
  by_cases h : n = name
  · simp [h]
  · rw [beq_false_of_ne h, if_neg h]
    rfl

theorem toList_ofList (entries : List (String × Node)) : (ofList entries).toList = entries := by
  induction entries with
  | nil => rfl
  | cons entry rest ih =>
    obtain ⟨name, node⟩ := entry
    cases node <;> simpa [ofList, cons, toList] using ih

theorem get?_ofList (entries : List (String × Node)) (n : String) :
    (ofList entries).get? n = entries.lookup n := by
  rw [get?, toList_ofList]

theorem names_ofList (entries : List (String × Node)) :
    (ofList entries).names = entries.map Prod.fst := by
  rw [names, toList_ofList]

theorem mem_toList_of_get? {n : String} (h : d.get? n = some node) : (n, node) ∈ d.toList := by
  obtain ⟨earlier, later, hlist, -⟩ := List.lookup_eq_some_iff.mp h
  rw [hlist]
  exact List.mem_append_right _ List.mem_cons_self

theorem get?_eq_none_of_not_mem (h : name ∉ d.names) : d.get? name = none := by
  rw [get?, List.lookup_eq_none_iff]
  intro entry hentry
  rw [bne_iff_ne]
  rintro rfl
  exact h (List.mem_map_of_mem hentry)

/-- A path leads to its first name, and on from there. -/
theorem at?_eq_bind (n : String) : d.at? (n :: path) = (d.get? n).bind (·.at? path) := by
  rw [at?.eq_def]
  cases hget : d.get? n with
  | none => simp [hget]
  | some node => cases node <;> cases path <;> simp [hget, Node.at?]

theorem at?_cons (n : String) :
    (cons name node rest).at? (n :: path)
      = if n = name then node.at? path else rest.at? (n :: path) := by
  rw [at?_eq_bind, at?_eq_bind, get?_cons]
  split <;> rfl

theorem mem_names_of_at? {n : String} (h : d.at? (n :: path) = some x) : n ∈ d.names := by
  obtain ⟨node, hget, -⟩ := Option.bind_eq_some_iff.mp (at?_eq_bind n ▸ h)
  exact List.mem_map_of_mem (mem_toList_of_get? hget)

/-- A path leads through the first entry or through one of the others. -/
theorem at?_cons_iff (hnew : name ∉ rest.names) (hpath : path ≠ []) :
    (cons name node rest).at? path = some x ↔
      (∃ inner, path = name :: inner ∧ node.at? inner = some x) ∨ rest.at? path = some x := by
  obtain ⟨n, path, rfl⟩ := List.exists_cons_of_ne_nil hpath
  rw [at?_cons]
  by_cases h : n = name
  · subst h
    rw [if_pos rfl]
    constructor
    · exact fun hx => Or.inl ⟨path, rfl, hx⟩
    · rintro (⟨inner, hinner, hx⟩ | hx)
      · obtain rfl := List.tail_eq_of_cons_eq hinner
        exact hx
      · exact absurd (mem_names_of_at? hx) hnew
  · rw [if_neg h]
    refine ⟨Or.inr, ?_⟩
    rintro (⟨inner, hinner, -⟩ | hx)
    · exact absurd (List.head_eq_of_cons_eq hinner) h
    · exact hx

/-- The directory itself is no file. -/
theorem ne_nil_of_at?_file (h : d.at? path = some (.file content)) : path ≠ [] := by
  rintro rfl
  cases h

theorem isName_of_cons (node : Node) (hname : Path.IsName name) (hnew : name ∉ rest.names)
    (hnode : ∀ inner, node.at? inner = some x → ∀ n ∈ inner, Path.IsName n)
    (hrest : rest.at? path = some x → ∀ n ∈ path, Path.IsName n)
    (h : (cons name node rest).at? path = some x) : ∀ n ∈ path, Path.IsName n := by
  by_cases hpath : path = []
  · rw [hpath]
    exact List.forall_mem_nil _
  · rcases (at?_cons_iff hnew hpath).mp h with ⟨inner, rfl, hinner⟩ | hlater
    · exact List.forall_mem_cons.mpr ⟨hname, hnode inner hinner⟩
    · exact hrest hlater

/-- The names on the way to a place can stand in a path. -/
theorem IsWellFormed.isName (wf : d.IsWellFormed) (h : d.at? path = some x) :
    ∀ n ∈ path, Path.IsName n := by
  induction d generalizing path with
  | empty =>
    cases path with
    | nil => exact List.forall_mem_nil _
    | cons => cases h
  | file name content rest ih =>
    obtain ⟨hname, hnew, hrest⟩ := wf
    refine isName_of_cons (.file content) hname hnew (fun inner hinner => ?_) (ih hrest) h
    cases inner with
    | nil => exact List.forall_mem_nil _
    | cons => cases hinner
  | link name target rest ih =>
    obtain ⟨hname, hnew, hrest⟩ := wf
    refine isName_of_cons (.link target) hname hnew (fun inner hinner => ?_) (ih hrest) h
    cases inner with
    | nil => exact List.forall_mem_nil _
    | cons => cases hinner
  | inside name entries rest ihInner ih =>
    obtain ⟨hname, hnew, hentries, hrest⟩ := wf
    exact isName_of_cons (.directory entries) hname hnew
      (fun _ hinner => ihInner hentries hinner) (ih hrest) h

end Directory

end CodeIndex
