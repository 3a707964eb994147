import CodeIndex.Imports.UseTree
import CodeIndex.Proofs.Syntax.Descendants
import CodeIndex.Proofs.Text.Split
import Mathlib.Data.List.Basic
/-!
# What a use declaration means

A use declaration names one path for each leaf of its use tree, and the path of a leaf can be told
from its ancestors: the paths in front of the lists around it, the outermost first, and then its own
(`leafPath`). A leaf `self` has no path of its own below others, renamed or not.

For every well-formed use tree (`IsUseTree`) the reader gives one import for each leaf in order, and
`readUse_eq_iff` says when it is the one that the leaf means: always, unless a `self` below a path
is renamed. The path of such a leaf is read with `self` at its end.
-/

namespace CodeIndex.Imports.UseTree

open CodeIndex.Syntax

/-! ### Paths and their segments -/

/-- The parts of a text between its double colons. -/
def splitColons : List Char → List (List Char)
  | [] => [[]]
  | ':' :: ':' :: rest => [] :: splitColons rest
  | c :: rest =>
    match splitColons rest with
    | [] => [[c]]
    | part :: parts => (c :: part) :: parts

/-- The segments of a path. -/
def segments (path : String) : List String :=
  (splitColons path.toList).map String.ofList

/-- The text of the path of some segments. -/
def pathText (path : List String) : String :=
  "::".intercalate path

theorem splitColons_ne_nil (cs : List Char) : splitColons cs ≠ [] := by
  fun_cases splitColons cs <;> simp_all

theorem intercalate_splitColons (cs : List Char) :
    [':', ':'].intercalate (splitColons cs) = cs := by
  fun_induction splitColons cs with
  | case1 => rfl
  | case2 rest ih =>
    -- There is a part behind the colons, if only an empty one, so they do not get lost.
    obtain ⟨part, parts, heq⟩ := List.exists_cons_of_ne_nil (splitColons_ne_nil rest)
    rw [heq] at ih ⊢
    rw [List.intercalate_cons_cons, ih]
    rfl
  | case3 c rest _ hnil => exact absurd hnil (splitColons_ne_nil rest)
  | case4 c rest _ part parts heq ih =>
    rw [heq] at ih
    cases parts <;> simp_all

theorem pathText_segments (path : String) : pathText (segments path) = path := by
  have hlists : (segments path).map String.toList = splitColons path.toList := by
    simp [segments, Function.comp_def]
  rw [← String.toList_inj, pathText, String.toList_intercalate, hlists]
  exact intercalate_splitColons path.toList

theorem segments_ne_nil (path : String) : segments path ≠ [] := by
  rw [segments, ne_eq, List.map_eq_nil_iff]
  exact splitColons_ne_nil _

/-- A text of segments that hold no colon. -/
structure IsPath (text : String) : Prop where
  nonempty : text ≠ ""
  plain : ∀ segment ∈ segments text, ':' ∉ segment.toList

instance (text : String) : Decidable (IsPath text) :=
  decidable_of_iff (text ≠ "" ∧ ∀ segment ∈ segments text, ':' ∉ segment.toList)
    ⟨fun h => ⟨h.1, h.2⟩, fun h => ⟨h.nonempty, h.plain⟩⟩

/-! ### The last segment -/

/-- Of two colons right in front of a text without any, the first begins the last separator. -/
theorem splitLast?_append_colons (before : List Char) {last : List Char} (h : ':' ∉ last) :
    Text.splitLast? [':', ':'] (before ++ ':' :: ':' :: last) = some (before, last) := by
  refine Text.splitLast?_append before ?_
  have hsecond : ¬ [':', ':'].isPrefixOf (':' :: last) := by
    cases last with
    | nil => simp [List.isPrefixOf]
    | cons c rest =>
      rw [List.mem_cons, not_or] at h
      simp [List.isPrefixOf, h.1]
  rw [List.singleton_append, Text.splitLast?, Text.splitLast?_of_not_mem [':'] h, if_neg hsecond]

/-- The last segment of a path is what is behind its last double colon. -/
theorem lastSegment_pathText {path : List String} (hne : path ≠ [])
    (hplain : ':' ∉ (path.getLast hne).toList) :
    lastSegment (pathText path) = path.getLast hne := by
  rw [← String.toList_inj, lastSegment, String.toList_ofList, Text.afterLast]
  -- The last segment is set apart from those in front of it, if there are any.
  conv_lhs => rw [← List.dropLast_append_getLast hne]
  by_cases hfront : path.dropLast = []
  · rw [hfront, List.nil_append, pathText, String.intercalate_singleton,
      Text.splitLast?_of_not_mem _ hplain]
  · rw [pathText, String.intercalate_append_of_ne_nil hfront (List.cons_ne_nil _ _),
      String.intercalate_singleton, String.toList_append, String.toList_append, List.append_assoc]
    have hsplit := splitLast?_append_colons ("::".intercalate path.dropLast).toList hplain
    exact hsplit ▸ rfl

/-! ### Paths below paths -/

theorem pathText_append {outer inner : List String} (houter : outer ≠ []) (hinner : inner ≠ []) :
    pathText (outer ++ inner) = pathText outer ++ "::" ++ pathText inner :=
  String.intercalate_append_of_ne_nil houter hinner

/-- From its text it can be told whether a path has segments, and which is the last. -/
structure IsReadable (path : List String) : Prop where
  nonempty : path ≠ [] → pathText path ≠ ""
  last : lastSegment (pathText path) = path.getLastD ""

theorem isReadable_nil : IsReadable [] where
  nonempty hne := absurd rfl hne
  last := by decide

theorem isReadable_append_segments (outer : List String) {text : String} (h : IsPath text) :
    IsReadable (outer ++ segments text) where
  nonempty _ := by
    by_cases hnil : outer = []
    · rw [hnil, List.nil_append, pathText_segments]
      exact h.nonempty
    · rw [pathText_append hnil (segments_ne_nil text)]
      simp
  last := by
    have hne : outer ++ segments text ≠ [] := by simp [segments_ne_nil]
    have hlast : (outer ++ segments text).getLast hne
        = (segments text).getLast (segments_ne_nil text) :=
      List.getLast_append_of_right_ne_nil _ _ (segments_ne_nil text)
    rw [lastSegment_pathText hne (hlast ▸ h.plain _ (List.getLast_mem _)),
      List.getLastD_eq_getLast?, List.getLast?_eq_some_getLast hne]
    rfl

theorem IsReadable.not_isEmpty {path : List String} (h : IsReadable path) (hne : path ≠ []) :
    ¬ (pathText path).isEmpty := by
  rw [String.isEmpty_iff]
  exact h.nonempty hne

/-- Joining texts joins the paths. -/
theorem join_pathText {outer : List String} (houter : IsReadable outer) (text : String) :
    join (pathText outer) text = pathText (outer ++ segments text) := by
  by_cases hnil : outer = []
  · rw [hnil, List.nil_append, pathText_segments]
    rfl
  · rw [join, if_neg (houter.not_isEmpty hnil), pathText_append hnil (segments_ne_nil text),
      pathText_segments]

/-! ### Leaves -/

section Leaves

variable (t : Tree) (source : String)

/-- The kinds of a path that is not the word `self` alone. -/
def pathKinds : List String := ["identifier", "scoped_identifier", "crate", "super"]

/-- The kinds of the leaves of a use tree. -/
def leafKinds : List String := "use_as_clause" :: "use_wildcard" :: "self" :: pathKinds

/-- The kinds of the nodes that hold further trees. -/
def groupKinds : List String := ["use_list", "scoped_use_list"]

/-- The kinds of the nodes that a use tree may hold without a meaning. -/
def commentKinds : List String := ["line_comment", "block_comment"]

/-- The nodes between a declaration and a node below it, the nearest first. -/
def between (decl id : Nat) : List Nat :=
  (t.ancestors id).filter (decl ∈ t.ancestors ·)

/-- The node is a leaf of the declaration: only lists stand between them, and it stands in the last
of them as an item. -/
def IsLeaf (decl id : Nat) : Prop :=
  t.kind id ∈ leafKinds ∧ (∀ a ∈ between t decl id, t.kind a ∈ groupKinds) ∧
    ∀ a ∈ (between t decl id).head?, t.kind a = "use_list"

instance (decl id : Nat) : Decidable (IsLeaf t decl id) :=
  inferInstanceAs (Decidable (_ ∧ _ ∧ _))

/-- The leaves of a use tree in order. -/
def leaves (decl argument : Nat) : List Nat :=
  (t.descendants argument).filter (IsLeaf t decl ·)

/-- The node of the path in front of a list. -/
def front? (id : Nat) : Option Nat :=
  if t.kind id = "scoped_use_list" then t.childByField? id "path" else none

/-- The nodes of the paths in front of the lists around a node, the outermost first. -/
def fronts (decl id : Nat) : List Nat :=
  (between t decl id).reverse.filterMap (front? t)

/-- The path that a node spells out. -/
def pathAt (id : Nat) : List String :=
  segments (trimmedText t source id)

/-- The path in front of a node. -/
def outerPath (decl id : Nat) : List String :=
  (fronts t decl id).flatMap (pathAt t source)

/-- The node of a leaf's own path. A star may have none. -/
def own? (id : Nat) : Option Nat :=
  match t.kind id with
  | "use_as_clause" => t.childByField? id "path"
  | "use_wildcard" => (t.children id).head?
  | _ => some id

/-- The path of a leaf as it is written, from the outermost segment on. -/
def writtenPath (decl id : Nat) : List String :=
  outerPath t source decl id ++ (own? t id).toList.flatMap (pathAt t source)

/-- The leaf is the word `self` behind a path, under its own or another name. -/
def IsSelfBelow (decl id : Nat) : Prop :=
  t.kind id ≠ "use_wildcard" ∧ (own? t id).map t.kind = some "self" ∧
    outerPath t source decl id ≠ []

instance (decl id : Nat) : Decidable (IsSelfBelow t source decl id) :=
  inferInstanceAs (Decidable (_ ∧ _ ∧ _))

/-- The path that a leaf means. The word `self` behind a path means that path. -/
def leafPath (decl id : Nat) : List String :=
  if IsSelfBelow t source decl id then outerPath t source decl id else writtenPath t source decl id

/-- The new name in an as-clause. -/
def alias? (id : Nat) : Option String :=
  if t.kind id = "use_as_clause" then (t.childByField? id "alias").map (trimmedText t source)
  else none

/-- The import of a leaf that means `path`: everything below the path if it is a star, otherwise the
path under the leaf's alias or else under the last segment. -/
def importAs (line id : Nat) (path : List String) : Import :=
  if t.kind id = "use_wildcard" then .all (pathText path) line
  else .binding (pathText path) line [⟨(alias? t source id).getD (path.getLastD ""), pathText path⟩]

/-- The use tree at a node is well formed. -/
inductive IsUseTree : Nat → Prop
  | path {id : Nat} (kind : t.kind id ∈ pathKinds) (text : IsPath (trimmedText t source id)) :
      IsUseTree id
  | self {id : Nat} (kind : t.kind id = "self") (text : IsPath (trimmedText t source id)) :
      IsUseTree id
  | renamed {id inner : Nat} (kind : t.kind id = "use_as_clause")
      (path : t.childByField? id "path" = some inner)
      (text : IsPath (trimmedText t source inner)) : IsUseTree id
  | wildcard {id : Nat} (kind : t.kind id = "use_wildcard")
      (text : ∀ inner ∈ (t.children id).head?, IsPath (trimmedText t source inner)) : IsUseTree id
  | list {id : Nat} (kind : t.kind id = "use_list")
      (items : ∀ c ∈ t.children id, t.kind c ∉ commentKinds → IsUseTree c) : IsUseTree id
  | scopedList {id items : Nat} (kind : t.kind id = "scoped_use_list")
      (list : t.childByField? id "list" = some items) (listKind : t.kind items = "use_list")
      (only : ∀ c ∈ t.children id, t.kind c ∈ groupKinds → c = items)
      (text : ∀ inner ∈ t.childByField? id "path", IsPath (trimmedText t source inner))
      (inner : IsUseTree items) : IsUseTree id

end Leaves

variable {t : Tree} {source : String} {decl id : Nat}

/-! ### Between a declaration and a node -/

theorem between_argument (h : id ∈ t.children decl) : between t decl id = [] := by
  rw [between, List.filter_eq_nil_iff]
  intro a ha hdecl
  rw [decide_eq_true_eq] at hdecl
  rw [t.ancestors_of_mem_children h] at ha
  -- The declaration would come before itself.
  have hlt := t.lt_of_mem_ancestors hdecl
  rcases List.mem_cons.mp ha with rfl | ha
  · exact Nat.lt_irrefl _ hlt
  · exact Nat.lt_asymm hlt (t.lt_of_mem_ancestors ha)

theorem between_of_mem_children {c : Nat} (hid : decl ∈ t.ancestors id) (hc : c ∈ t.children id) :
    between t decl c = id :: between t decl id := by
  rw [between, t.ancestors_of_mem_children hc, List.filter_cons_of_pos (by simpa using hid),
    between]

theorem mem_ancestors_of_mem_children {c : Nat} (hid : decl ∈ t.ancestors id)
    (hc : c ∈ t.children id) : decl ∈ t.ancestors c := by
  rw [t.ancestors_of_mem_children hc]
  exact List.mem_cons_of_mem _ hid

/-- A node is between the declaration and whatever is below the node. -/
theorem mem_between (hid : decl ∈ t.ancestors id) {d : Nat} (hd : id ∈ t.ancestors d) :
    id ∈ between t decl d :=
  List.mem_filter.mpr ⟨hd, decide_eq_true hid⟩

/-- Below a node that is no list there are no leaves. -/
theorem not_isLeaf_below (hid : decl ∈ t.ancestors id) (hkind : t.kind id ∉ groupKinds) {d : Nat}
    (hd : id ∈ t.ancestors d) : ¬ IsLeaf t decl d :=
  fun hleaf => hkind (hleaf.2.1 id (mem_between hid hd))

theorem leaves_of_not_group (hid : decl ∈ t.ancestors id) (hkind : t.kind id ∉ groupKinds) :
    leaves t decl id = if IsLeaf t decl id then [id] else [] := by
  have hbelow : ((t.children id).flatMap t.descendants).filter (IsLeaf t decl ·) = [] := by
    rw [List.filter_eq_nil_iff]
    intro d hd hleaf
    obtain ⟨c, hc, hd⟩ := List.mem_flatMap.mp hd
    have hc := t.ancestors_of_mem_children hc
    -- The node itself stands between the declaration and whatever is below the node.
    refine not_isLeaf_below hid hkind ?_ (of_decide_eq_true hleaf)
    rcases t.ancestors_of_mem_descendants c d hd with rfl | ⟨inner, hinner⟩
    · simp [hc]
    · simp [hinner, hc]
  rw [leaves, t.descendants_eq, List.filter_cons, hbelow]
  simp only [decide_eq_true_eq]

/-- The leaves of a list are those of its items. -/
theorem leaves_of_group (hkind : t.kind id ∈ groupKinds) :
    leaves t decl id = (t.children id).flatMap (leaves t decl) := by
  have hnot : ¬ IsLeaf t decl id := by
    intro hleaf
    have hdisjoint : ∀ kind ∈ groupKinds, kind ∉ leafKinds := by decide
    exact hdisjoint _ hkind hleaf.1
  rw [leaves, t.descendants_eq, List.filter_cons_of_neg (by simpa using hnot), List.filter_flatMap]
  rfl

/-! ### Paths in front -/

theorem fronts_of_mem_children {c : Nat} (hid : decl ∈ t.ancestors id) (hc : c ∈ t.children id) :
    fronts t decl c = fronts t decl id ++ (front? t id).toList := by
  rw [fronts, between_of_mem_children hid hc, List.reverse_cons, List.filterMap_append, fronts]
  cases hfront : front? t id <;> simp [hfront]

theorem outerPath_of_mem_children {c : Nat} (hid : decl ∈ t.ancestors id)
    (hc : c ∈ t.children id) :
    outerPath t source decl c
      = outerPath t source decl id ++ (front? t id).toList.flatMap (pathAt t source) := by
  rw [outerPath, fronts_of_mem_children hid hc, List.flatMap_append, outerPath]

theorem isReadable_outerPath
    (h : ∀ front ∈ fronts t decl id, IsPath (trimmedText t source front)) :
    IsReadable (outerPath t source decl id) := by
  rw [outerPath]
  rcases List.eq_nil_or_concat (fronts t decl id) with hnil | ⟨rest, last, hlast⟩
  · rw [hnil]
    exact isReadable_nil
  · rw [List.concat_eq_append] at hlast
    have hpath := h last (by rw [hlast]; simp)
    rw [hlast, List.flatMap_append, List.flatMap_singleton]
    exact isReadable_append_segments _ hpath

/-! ### Reading the nodes -/

theorem ofNode_path (h : t.kind id ∈ pathKinds) :
    ofNode t source id = .path (trimmedText t source id) := by
  rw [ofNode]
  simp only [pathKinds, List.mem_cons, List.not_mem_nil, or_false] at h
  rcases h with h | h | h | h <;> simp [h]

theorem ofNode_self (h : t.kind id = "self") :
    ofNode t source id = .self (trimmedText t source id) := by
  rw [ofNode]
  simp [h]

theorem ofNode_renamed {inner : Nat} (h : t.kind id = "use_as_clause")
    (hpath : t.childByField? id "path" = some inner) :
    ofNode t source id = .renamed (trimmedText t source inner)
      ((t.childByField? id "alias").map (trimmedText t source)) := by
  rw [ofNode]
  simp [h, hpath]

theorem ofNode_wildcard (h : t.kind id = "use_wildcard") :
    ofNode t source id = .wildcard ((t.children id).head?.map (trimmedText t source)) := by
  rw [ofNode]
  simp [h]

theorem ofNode_list (h : t.kind id = "use_list") :
    ofNode t source id = .list ((t.children id).map (ofNode t source)) := by
  rw [ofNode]
  simp [h]

theorem ofNode_scoped {items : Nat} (h : t.kind id = "scoped_use_list")
    (hlist : t.childByField? id "list" = some items) :
    ofNode t source id = .scoped ((t.childByField? id "path").map (trimmedText t source))
      (ofNode t source items) := by
  rw [ofNode]
  simp only [h]
  split
  · rename_i hnone
    rw [hnone] at hlist
    cases hlist
  · rename_i items' hsome
    rw [hsome] at hlist
    obtain rfl := Option.some.inj hlist
    rfl

theorem ofNode_comment (h : t.kind id ∈ commentKinds) : ofNode t source id = .nothing := by
  rw [ofNode]
  simp only [commentKinds, List.mem_cons, List.not_mem_nil, or_false] at h
  rcases h with h | h <;> simp [h]

theorem importsOfList_eq (line : Nat) (outer : String) (items : List UseTree) :
    importsOfList line outer items = items.flatMap (imports line outer) := by
  induction items with
  | nil => rfl
  | cons item items ih => rw [importsOfList, ih, List.flatMap_cons]

/-! ### Reading a leaf -/

/-- The leaf is the word `self` behind a path, under a new name. -/
def IsRenamedSelf (t : Tree) (source : String) (decl id : Nat) : Prop :=
  t.kind id = "use_as_clause" ∧ IsSelfBelow t source decl id

instance (t : Tree) (source : String) (decl id : Nat) :
    Decidable (IsRenamedSelf t source decl id) :=
  inferInstanceAs (Decidable (_ ∧ _))

/-- The path under which a leaf is read. -/
def readPath (t : Tree) (source : String) (decl id : Nat) : List String :=
  if IsRenamedSelf t source decl id then writtenPath t source decl id
  else leafPath t source decl id

theorem readPath_of_written (h : t.kind id = "self" → outerPath t source decl id = []) :
    readPath t source decl id = writtenPath t source decl id := by
  unfold readPath leafPath
  by_cases hrenamed : IsRenamedSelf t source decl id
  · rw [if_pos hrenamed]
  · rw [if_neg hrenamed, if_neg]
    intro hself
    have hclause : t.kind id ≠ "use_as_clause" := fun heq => hrenamed ⟨heq, hself⟩
    obtain ⟨hstar, hown, houter⟩ := hself
    rw [own?] at hown
    split at hown
    · contradiction
    · contradiction
    · exact houter (h (Option.some.inj hown))

theorem readPath_of_self (h : t.kind id = "self") (houter : outerPath t source decl id ≠ []) :
    readPath t source decl id = outerPath t source decl id := by
  have hrenamed : ¬ IsRenamedSelf t source decl id := fun hrenamed => by
    rw [IsRenamedSelf, h] at hrenamed
    exact absurd hrenamed.1 (by decide)
  rw [readPath, if_neg hrenamed, leafPath, if_pos]
  refine ⟨by rw [h]; decide, ?_, houter⟩
  simp [own?, h]

theorem writtenPath_of_own {inner : Nat} (h : own? t id = some inner) :
    writtenPath t source decl id
      = outerPath t source decl id ++ segments (trimmedText t source inner) := by
  simp [writtenPath, h, pathAt]

theorem own?_of_ne (hclause : t.kind id ≠ "use_as_clause") (hstar : t.kind id ≠ "use_wildcard") :
    own? t id = some id := by
  unfold own?
  split
  · contradiction
  · contradiction
  · rfl

/-- The import of a leaf that is no star and has no clause for a new name. -/
theorem importAs_eq_leaf (line : Nat) {path : List String} (hpath : IsReadable path)
    (hclause : t.kind id ≠ "use_as_clause") (hstar : t.kind id ≠ "use_wildcard") :
    importAs t source line id path = leaf line (pathText path) := by
  rw [importAs, if_neg hstar, alias?, if_neg hclause, Option.getD_none, leaf, hpath.last]

/-- A leaf is read as one import. -/
theorem imports_of_leaf (line : Nat) (htree : IsUseTree t source id) (hkind : t.kind id ∈ leafKinds)
    (houter : IsReadable (outerPath t source decl id)) :
    (ofNode t source id).imports line (pathText (outerPath t source decl id))
      = [importAs t source line id (readPath t source decl id)] := by
  cases htree with
  | path kind text =>
    have hnot : ∀ kind ∈ pathKinds,
        kind ≠ "use_as_clause" ∧ kind ≠ "use_wildcard" ∧ kind ≠ "self" := by decide
    obtain ⟨hclause, hstar, hself⟩ := hnot _ kind
    rw [readPath_of_written fun h => absurd h hself, writtenPath_of_own (own?_of_ne hclause hstar),
      importAs_eq_leaf line (isReadable_append_segments _ text) hclause hstar, ofNode_path kind,
      imports, join_pathText houter]
  | self kind text =>
    have hclause : t.kind id ≠ "use_as_clause" := by rw [kind]; decide
    have hstar : t.kind id ≠ "use_wildcard" := by rw [kind]; decide
    rw [ofNode_self kind, imports]
    -- With nothing in front the word is a path like any other.
    by_cases hnil : outerPath t source decl id = []
    · rw [readPath_of_written fun _ => hnil, writtenPath_of_own (own?_of_ne hclause hstar),
        importAs_eq_leaf line (isReadable_append_segments _ text) hclause hstar, hnil,
        List.nil_append, pathText_segments]
      rfl
    · rw [readPath_of_self kind hnil, importAs_eq_leaf line houter hclause hstar,
        if_neg (houter.not_isEmpty hnil)]
  | @renamed _ inner kind path text =>
    have hself : t.kind id ≠ "self" := by rw [kind]; decide
    have hstar : t.kind id ≠ "use_wildcard" := by rw [kind]; decide
    have hown : own? t id = some inner := by simp [own?, kind, path]
    rw [readPath_of_written fun h => absurd h hself, writtenPath_of_own hown, importAs,
      if_neg hstar, alias?, if_pos kind, ofNode_renamed kind path, imports, join_pathText houter,
      (isReadable_append_segments _ text).last]
  | wildcard kind text =>
    have hself : t.kind id ≠ "self" := by rw [kind]; decide
    rw [readPath_of_written fun h => absurd h hself, importAs, if_pos kind, ofNode_wildcard kind,
      imports, writtenPath, own?]
    simp only [kind]
    cases (t.children id).head? with
    | none => simp [extend]
    | some inner => simp [extend, join_pathText houter, pathAt]
  | list kind items =>
    rw [kind] at hkind
    exact absurd hkind (by decide)
  | scopedList kind list listKind only text inner =>
    rw [kind] at hkind
    exact absurd hkind (by decide)

/-! ### Reading a tree -/

/-- The place of a node below a declaration is one where a use tree may stand. -/
structure IsPlace (t : Tree) (source : String) (decl id : Nat) : Prop where
  below : decl ∈ t.ancestors id
  groups : ∀ a ∈ between t decl id, t.kind a ∈ groupKinds
  item : t.kind id ∈ leafKinds → ∀ a ∈ (between t decl id).head?, t.kind a = "use_list"
  paths : ∀ front ∈ fronts t decl id, IsPath (trimmedText t source front)

theorem IsPlace.item_of_list {c : Nat} (h : IsPlace t source decl id)
    (hkind : t.kind id = "use_list") (hc : c ∈ t.children id) : IsPlace t source decl c where
  below := mem_ancestors_of_mem_children h.below hc
  groups := by
    rw [between_of_mem_children h.below hc]
    refine List.forall_mem_cons.mpr ⟨?_, h.groups⟩
    rw [hkind]
    decide
  item _ := by
    rw [between_of_mem_children h.below hc]
    intro a ha
    rwa [← Option.some.inj ha]
  paths := by
    rw [fronts_of_mem_children h.below hc, front?, if_neg (by rw [hkind]; decide)]
    simpa using h.paths

theorem IsPlace.list_of_scoped {items : Nat} (h : IsPlace t source decl id)
    (hkind : t.kind id = "scoped_use_list") (hitems : items ∈ t.children id)
    (hlist : t.kind items = "use_list")
    (htext : ∀ inner ∈ t.childByField? id "path", IsPath (trimmedText t source inner)) :
    IsPlace t source decl items where
  below := mem_ancestors_of_mem_children h.below hitems
  groups := by
    rw [between_of_mem_children h.below hitems]
    refine List.forall_mem_cons.mpr ⟨?_, h.groups⟩
    rw [hkind]
    decide
  item hleaf := by
    rw [hlist] at hleaf
    exact absurd hleaf (by decide)
  paths := by
    rw [fronts_of_mem_children h.below hitems, front?, if_pos hkind]
    intro front hfront
    rcases List.mem_append.mp hfront with hfront | hfront
    · exact h.paths front hfront
    · exact htext front (Option.mem_toList.mp hfront)

theorem leaves_of_isLeaf (hdecl : decl ∈ t.ancestors id) (h : IsLeaf t decl id) :
    leaves t decl id = [id] := by
  have hdisjoint : ∀ kind ∈ leafKinds, kind ∉ groupKinds := by decide
  rw [leaves_of_not_group hdecl (hdisjoint _ h.1), if_pos h]

/-- All leaves of a list behind a path are leaves of the list. -/
theorem leaves_of_scopedList {items : Nat} (hdecl : decl ∈ t.ancestors id)
    (hkind : t.kind id = "scoped_use_list") (hitems : items ∈ t.children id)
    (honly : ∀ c ∈ t.children id, t.kind c ∈ groupKinds → c = items) :
    leaves t decl id = leaves t decl items := by
  have hnone : ∀ c ∈ t.children id, c ≠ items → leaves t decl c = [] := by
    intro c hc hne
    rw [leaves_of_not_group (mem_ancestors_of_mem_children hdecl hc) fun h => hne (honly c hc h)]
    refine if_neg fun hleaf => ?_
    -- An item would stand in a plain list.
    have hlist := hleaf.2.2 id (by rw [between_of_mem_children hdecl hc]; rfl)
    rw [hkind] at hlist
    exact absurd hlist (by decide)
  obtain ⟨before, after, heq⟩ := List.append_of_mem hitems
  have hnodup := t.nodup_children id
  rw [leaves_of_group (by rw [hkind]; decide), heq, List.flatMap_append, List.flatMap_cons]
  rw [heq, List.nodup_append, List.nodup_cons] at hnodup
  have hbefore : before.flatMap (leaves t decl) = [] := by
    rw [List.flatMap_eq_nil_iff]
    intro c hc
    exact hnone c (heq ▸ List.mem_append_left _ hc) (hnodup.2.2 c hc items List.mem_cons_self)
  have hafter : after.flatMap (leaves t decl) = [] := by
    rw [List.flatMap_eq_nil_iff]
    intro c hc
    refine hnone c (heq ▸ List.mem_append_right _ (List.mem_cons_of_mem _ hc)) ?_
    rintro rfl
    exact hnodup.2.1.1 hc
  rw [hbefore, hafter, List.nil_append, List.append_nil]

/-- A use tree is read as one import for each leaf. -/
theorem imports_eq (line : Nat) (htree : IsUseTree t source id)
    (hplace : IsPlace t source decl id) :
    (ofNode t source id).imports line (pathText (outerPath t source decl id))
      = (leaves t decl id).map fun leaf =>
          importAs t source line leaf (readPath t source decl leaf) := by
  -- A leaf is its only leaf; the leaves of a list are those of its items.
  have hleaf : ∀ id, IsUseTree t source id → IsPlace t source decl id → t.kind id ∈ leafKinds →
      (ofNode t source id).imports line (pathText (outerPath t source decl id))
        = (leaves t decl id).map fun leaf =>
            importAs t source line leaf (readPath t source decl leaf) := by
    intro id htree hplace hkind
    rw [leaves_of_isLeaf hplace.below ⟨hkind, hplace.groups, hplace.item hkind⟩,
      imports_of_leaf line htree hkind (isReadable_outerPath hplace.paths)]
    rfl
  induction htree with
  | @path id kind text =>
    have hkind : ∀ kind ∈ pathKinds, kind ∈ leafKinds := by decide
    exact hleaf id (.path kind text) hplace (hkind _ kind)
  | @self id kind text => exact hleaf id (.self kind text) hplace (by rw [kind]; decide)
  | @renamed id inner kind path text =>
    exact hleaf id (.renamed kind path text) hplace (by rw [kind]; decide)
  | @wildcard id kind text => exact hleaf id (.wildcard kind text) hplace (by rw [kind]; decide)
  | @list id kind items ih =>
    rw [ofNode_list kind, imports, importsOfList_eq, leaves_of_group (by rw [kind]; decide),
      List.flatMap_map, List.map_flatMap]
    apply List.flatMap_congr
    intro c hc
    have hitem := hplace.item_of_list kind hc
    -- A list has no path of its own, so its items are read behind the same path.
    have houter : outerPath t source decl c = outerPath t source decl id := by
      rw [outerPath_of_mem_children hplace.below hc, front?, if_neg (by rw [kind]; decide)]
      simp
    by_cases hcomment : t.kind c ∈ commentKinds
    · have hgroup : ∀ kind ∈ commentKinds, kind ∉ groupKinds ∧ kind ∉ leafKinds := by decide
      rw [ofNode_comment hcomment, imports,
        leaves_of_not_group hitem.below (hgroup _ hcomment).1,
        if_neg fun h => (hgroup _ hcomment).2 h.1]
      rfl
    · rw [← houter]
      exact ih c hc hcomment hitem
  | @scopedList id items kind list listKind only text inner ih =>
    have hitems := Tree.mem_children_of_childByField? list
    have hinner := hplace.list_of_scoped kind hitems listKind text
    -- The text that the reader carries down is that of the path in front of the items.
    have houter : pathText (outerPath t source decl items)
        = extend (pathText (outerPath t source decl id))
            ((t.childByField? id "path").map (trimmedText t source)) := by
      rw [outerPath_of_mem_children hplace.below hitems, front?, if_pos kind]
      cases t.childByField? id "path" with
      | none => simp [extend]
      | some path =>
        simp [extend, join_pathText (isReadable_outerPath hplace.paths), pathAt]
    rw [ofNode_scoped kind list, imports, ← houter,
      leaves_of_scopedList hplace.below kind hitems only]
    exact ih hinner

/-! ### Reading a declaration -/

theorem isPlace_argument (h : id ∈ t.children decl) : IsPlace t source decl id := by
  have hbetween := between_argument h
  exact
    { below := by rw [t.ancestors_of_mem_children h]; exact List.mem_cons_self
      groups := by rw [hbetween]; exact nofun
      item := by rw [hbetween]; exact nofun
      paths := by rw [fronts, hbetween]; exact nofun }

/-- A declaration is read as one import for each leaf. -/
theorem readUse_eq {argument : Nat} (hargument : t.childByField? decl "argument" = some argument)
    (htree : IsUseTree t source argument) :
    readUse t source decl = (leaves t decl argument).map fun leaf =>
      importAs t source (t.node decl).startLine leaf (readPath t source decl leaf) := by
  have hchild := Tree.mem_children_of_childByField? hargument
  have houter : outerPath t source decl argument = [] := by
    rw [outerPath, fronts, between_argument hchild]
    rfl
  have himports := imports_eq (t.node decl).startLine htree (isPlace_argument hchild)
  rw [houter] at himports
  rw [readUse, hargument]
  exact himports

/-- What a leaf imports. -/
def importOf (t : Tree) (source : String) (decl leaf : Nat) : Import :=
  importAs t source (t.node decl).startLine leaf (leafPath t source decl leaf)

/-- A leaf is read as what it imports unless it is a renamed `self` behind a path. -/
theorem importAs_readPath_eq_iff :
    importAs t source (t.node decl).startLine id (readPath t source decl id)
        = importOf t source decl id ↔ ¬ IsRenamedSelf t source decl id := by
  rw [importOf, readPath]
  by_cases hrenamed : IsRenamedSelf t source decl id
  · rw [if_pos hrenamed]
    refine iff_of_false (fun heq => ?_) (not_not_intro hrenamed)
    obtain ⟨hstar, hown, houter⟩ := hrenamed.2
    obtain ⟨inner, hinner, -⟩ := Option.map_eq_some_iff.mp hown
    -- With the word `self` at its end a path is longer.
    have hmodule := congrArg (fun i => i.modulePath.length) heq
    rw [leafPath, if_pos hrenamed.2, writtenPath_of_own hinner, importAs, if_neg hstar, importAs,
      if_neg hstar] at hmodule
    simp only [Import.binding, pathText_append houter (segments_ne_nil _), String.length_append]
      at hmodule
    have hcolons : "::".length = 2 := rfl
    omega
  · rw [if_neg hrenamed]
    exact iff_of_true rfl hrenamed

/-- **What a use declaration imports.** A well-formed use declaration is read as one import for each
leaf of its tree, in order and with the line of the declaration. It is what the leaf imports, for
every leaf, just when no `self` behind a path is renamed. -/
theorem readUse_eq_iff {argument : Nat}
    (hargument : t.childByField? decl "argument" = some argument)
    (htree : IsUseTree t source argument) :
    readUse t source decl = (leaves t decl argument).map (importOf t source decl) ↔
      ∀ leaf ∈ leaves t decl argument, ¬ IsRenamedSelf t source decl leaf := by
  rw [readUse_eq hargument htree, List.map_inj_left]
  exact forall₂_congr fun leaf _ => importAs_readPath_eq_iff

/-- A list behind a path: the path itself, a renamed item and a star. -/
theorem readUse_eq_iff_list :
    let t : Tree :=
      ⟨"rust", .rust,
        #[⟨"source_file", none, 0, 28, 1, 1, none, false⟩,
          ⟨"use_declaration", none, 0, 28, 1, 1, some 0, false⟩,
          ⟨"scoped_use_list", some "argument", 4, 27, 1, 1, some 1, false⟩,
          ⟨"identifier", some "path", 4, 5, 1, 1, some 2, false⟩,
          ⟨"use_list", some "list", 7, 27, 1, 1, some 2, false⟩,
          ⟨"self", none, 8, 12, 1, 1, some 4, false⟩,
          ⟨"use_as_clause", none, 14, 20, 1, 1, some 4, false⟩,
          ⟨"identifier", some "path", 14, 15, 1, 1, some 6, false⟩,
          ⟨"identifier", some "alias", 19, 20, 1, 1, some 6, false⟩,
          ⟨"use_wildcard", none, 22, 26, 1, 1, some 4, false⟩,
          ⟨"identifier", none, 22, 23, 1, 1, some 9, false⟩], by decide, _, rfl⟩
    let source := "use a::\x7bself, b as c, d::*\x7d;"
    IsUseTree t source 2 ∧ leaves t 1 2 = [5, 6, 9] ∧
    (∀ leaf ∈ leaves t 1 2, ¬ IsRenamedSelf t source 1 leaf) ∧
    readUse t source 1
      = [.binding "a" 1 [⟨"a", "a"⟩], .binding "a::b" 1 [⟨"c", "a::b"⟩], .all "a::d" 1] := by
  intro t source
  have hitem : IsUseTree t source 5 := .self (by decide +kernel) (by decide +kernel)
  have hpath : t.childByField? 6 "path" = some 7 := by decide +kernel
  have hrenamed : IsUseTree t source 6 := .renamed (by decide +kernel) hpath (by decide +kernel)
  have hstar : IsUseTree t source 9 := .wildcard (by decide +kernel) (by decide +kernel)
  have hitems : t.children 4 = [5, 6, 9] := by decide +kernel
  have hlist : IsUseTree t source 4 := .list (by decide +kernel) (by
    simp [hitems, hitem, hrenamed, hstar])
  have hfield : t.childByField? 2 "list" = some 4 := by decide +kernel
  have htree : IsUseTree t source 2 := .scopedList (by decide +kernel) hfield (by decide +kernel)
    (by decide +kernel) (by decide +kernel) hlist
  have hnone : ∀ leaf ∈ leaves t 1 2, ¬ IsRenamedSelf t source 1 leaf := by decide +kernel
  refine ⟨htree, by decide +kernel, hnone, ?_⟩
  rw [(readUse_eq_iff (by decide +kernel) htree).mpr hnone]
  decide +kernel

/-- The name `self` in a list is the path in front of it. With a new name it is read as one segment
more. -/
theorem renamed_self_is_longer :
    let t : Tree :=
      ⟨"rust", .rust,
        #[⟨"source_file", none, 0, 19, 1, 1, none, false⟩,
          ⟨"use_declaration", none, 0, 19, 1, 1, some 0, false⟩,
          ⟨"scoped_use_list", some "argument", 4, 18, 1, 1, some 1, false⟩,
          ⟨"identifier", some "path", 4, 5, 1, 1, some 2, false⟩,
          ⟨"use_list", some "list", 7, 18, 1, 1, some 2, false⟩,
          ⟨"use_as_clause", none, 8, 17, 1, 1, some 4, false⟩,
          ⟨"self", some "path", 8, 12, 1, 1, some 5, false⟩,
          ⟨"identifier", some "alias", 16, 17, 1, 1, some 5, false⟩], by decide, _, rfl⟩
    let source := "use a::\x7bself as b\x7d;"
    t.childByField? 1 "argument" = some 2 ∧ IsUseTree t source 2 ∧ leaves t 1 2 = [5] ∧
    IsSelfBelow t source 1 5 ∧ importOf t source 1 5 = .binding "a" 1 [⟨"b", "a"⟩] ∧
    readUse t source 1 = [.binding "a::self" 1 [⟨"b", "a::self"⟩]] := by
  intro t source
  have hpath : t.childByField? 5 "path" = some 6 := by decide +kernel
  have hrenamed : IsUseTree t source 5 := .renamed (by decide +kernel) hpath (by decide +kernel)
  have hitems : t.children 4 = [5] := by decide +kernel
  have hlist : IsUseTree t source 4 := .list (by decide +kernel) (by simp [hitems, hrenamed])
  have hfield : t.childByField? 2 "list" = some 4 := by decide +kernel
  have htree : IsUseTree t source 2 := .scopedList (by decide +kernel) hfield (by decide +kernel)
    (by decide +kernel) (by decide +kernel) hlist
  exact ⟨by decide +kernel, htree, by decide +kernel, by decide +kernel, by decide +kernel,
    by decide +kernel⟩

end CodeIndex.Imports.UseTree
