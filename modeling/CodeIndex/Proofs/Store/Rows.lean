import CodeIndex.Proofs.Json.StringList
import CodeIndex.Proofs.Time.StoredText
import CodeIndex.Store.Rows
/-!
# Rows read back as what they were written from

A chunk, a triple or a resource whose numbers fit the columns is read back from its row as it was
(`ChunkRow.decode_encode`, `TripleRow.decode_encode`, `ResourceRow.readCells_encode` and
`ResourceRow.decode_rawOf`).
-/

namespace CodeIndex.Store

open CodeIndex.Number

/-! ### Reading cells -/

/-- A number below the bound is stored as itself. -/
theorem toSigned64_of_lt {n : Nat} (h : (n : Int) < signedBound64) : toSigned64 n = n := by
  rw [signedBound64] at h
  rw [toSigned64, count64]
  exact Int.bmod_eq_of_le (by omega) (by omega)

/-- The cell of a column stands where the column stands. -/
theorem Row.cell_of_place {columns : List Column} {row : Row} {column : String} {found : Cell}
    (i : Nat) (hplace : columns.findIdx? (·.name == column) = some i)
    (hfound : row[i]? = some found) : row.cell columns column = found := by
  induction columns generalizing row i with
  | nil => cases hplace
  | cons c columns ih =>
    cases row with
    | nil => cases hfound
    | cons x row =>
      rw [List.findIdx?_cons] at hplace
      have hcell : cell (x :: row) (c :: columns) column
          = if c.name == column then x else cell row columns column := by
        rw [cell, List.zip_cons_cons, List.find?_cons]
        cases hname : c.name == column <;> simp [hname, cell]
      rw [hcell]
      cases hname : c.name == column with
      | true =>
        rw [hname, if_pos rfl] at hplace
        obtain rfl := Option.some.inj hplace
        exact Option.some.inj hfound
      | false =>
        rw [hname, if_neg Bool.false_ne_true, Option.map_eq_some_iff] at hplace
        obtain ⟨j, hj, rfl⟩ := hplace
        exact ih j hj hfound

namespace Row.Reader

variable {r : Row.Reader} {row : Row} {column : String} (i : Nat)
  (hplace : r.columns.findIdx? (·.name == column) = some i)
include hplace

theorem text_of_place {s : String} (h : row[i]? = some (.text s)) : r.text row column = .ok s := by
  rw [text, cell_of_place i hplace h]

theorem text?_of_place {s : Option String} (h : row[i]? = some (.ofText? s)) :
    r.text? row column = .ok s := by
  rw [text?, cell_of_place i hplace h]
  cases s <;> rfl

theorem integer_of_place {n : Int} (h : row[i]? = some (.integer n)) :
    r.integer row column = .ok n := by
  rw [integer, cell_of_place i hplace h]

theorem nat_of_place {n : Nat} (hn : n < count64) (h : row[i]? = some (.ofNat n)) :
    r.nat row column = .ok n := by
  rw [nat, integer_of_place i hplace h, Except.map, ofSigned64_toSigned64 hn]

theorem bool_of_place {b : Bool} (h : row[i]? = some (.ofBool b)) :
    r.bool row column = .ok b := by
  rw [bool, integer_of_place i hplace h]
  cases b <;> rfl

theorem real_of_place {x : Binary32} (h : row[i]? = some (.real x)) :
    r.real row column = .ok x := by
  rw [real, cell_of_place i hplace h]

end Row.Reader

/-- A step of a reader that gives a value. -/
theorem bind_of_ok {α β : Type} {x : Except Fault α} {a : α} {f : α → Except Fault β}
    (h : x = .ok a) : (x >>= f) = f a := by
  rw [h]
  rfl

/-! ### Chunks -/

namespace ChunkRow

open Row.Reader

/-- The numbers of a chunk have 64 bits. -/
structure Fits (c : Chunk) : Prop where
  seq : c.seq < count64
  startLine : c.startLine < count64
  endLine : c.endLine < count64
  tokenCount : c.tokenCount < count64

theorem ofName?_kind (kind : ChunkKind) : ChunkKind.ofName? kind.name = some kind := by
  cases kind <;> decide

theorem decode_encode {c : Chunk} (h : Fits c) : decode (encode c) = .ok c := by
  have hkind : ∀ r : Row.Reader,
      r.named ChunkKind.ofName? "chunk type" "chunk_type" c.kind.name = .ok c.kind := by
    intro r
    rw [named, ofName?_kind]
  -- Cell by cell, in the order in which the members are read.
  refine (bind_of_ok (text_of_place 3 (by decide) rfl)).trans ?_
  refine (bind_of_ok (text_of_place 0 (by decide) rfl)).trans ?_
  refine (bind_of_ok (text_of_place 1 (by decide) rfl)).trans ?_
  refine (bind_of_ok (nat_of_place 2 (by decide) h.seq rfl)).trans ?_
  refine (bind_of_ok (hkind _)).trans ?_
  refine (bind_of_ok (text?_of_place 4 (by decide) rfl)).trans ?_
  refine (bind_of_ok (text?_of_place 5 (by decide) rfl)).trans ?_
  refine (bind_of_ok (nat_of_place 6 (by decide) h.startLine rfl)).trans ?_
  refine (bind_of_ok (nat_of_place 7 (by decide) h.endLine rfl)).trans ?_
  refine (bind_of_ok (text_of_place 8 (by decide) rfl)).trans ?_
  refine (bind_of_ok (nat_of_place 9 (by decide) h.tokenCount rfl)).trans ?_
  refine (bind_of_ok (bool_of_place 10 (by decide) rfl)).trans ?_
  refine (bind_of_ok (bool_of_place 11 (by decide) rfl)).trans ?_
  refine (bind_of_ok (text_of_place 12 (by decide) rfl)).trans ?_
  refine (bind_of_ok (text_of_place 13 (by decide) rfl)).trans ?_
  rfl

end ChunkRow

/-! ### Triples -/

namespace TripleRow

open Row.Reader

theorem ofName?_predicate (predicate : Predicate) :
    Predicate.ofName? predicate.name = some predicate := by
  cases predicate <;> decide

theorem decode_encode {t : Triple} (hline : t.line < count64) : decode (encode t) = .ok t := by
  have hpredicate : ∀ r : Row.Reader,
      r.named Predicate.ofName? "predicate" "predicate" t.predicate.name = .ok t.predicate := by
    intro r
    rw [named, ofName?_predicate]
  -- The id is not read: a triple has it from its other members.
  refine (bind_of_ok (text_of_place 3 (by decide) rfl)).trans ?_
  refine (bind_of_ok (text_of_place 1 (by decide) rfl)).trans ?_
  refine (bind_of_ok (text_of_place 2 (by decide) rfl)).trans ?_
  refine (bind_of_ok (hpredicate _)).trans ?_
  refine (bind_of_ok (text_of_place 4 (by decide) rfl)).trans ?_
  refine (bind_of_ok (text_of_place 5 (by decide) rfl)).trans ?_
  refine (bind_of_ok (text_of_place 6 (by decide) rfl)).trans ?_
  refine (bind_of_ok (nat_of_place 7 (by decide) hline rfl)).trans ?_
  refine (bind_of_ok (real_of_place 8 (by decide) rfl)).trans ?_
  rfl

end TripleRow

/-! ### Resources -/

namespace ResourceRow

open Row.Reader

/-- The size of a resource is a signed number and its instant can be stored. -/
structure Fits (r : Resource) : Prop where
  sizeBytes : (r.sizeBytes : Int) < signedBound64
  ingestedAt : r.ingestedAt.IsStorable

theorem ofName?_classification (c : Classification) : Classification.ofName? c.name = some c := by
  cases c <;> decide

theorem ofName?_status (status : ResourceStatus) :
    ResourceStatus.ofName? status.name = some status := by
  cases status <;> decide

/-- The cells of a resource. -/
def rawOf (r : Resource) : Raw :=
  ⟨r.id, r.relativePath, r.repositoryRoot, r.commitHash, r.branch, r.classification.name,
    r.language, r.status.name, r.contentHash, toSigned64 r.sizeBytes, Json.writeStrings r.warnings,
    r.ingestedAt.storedText⟩

theorem readCells_encode (r : Resource) : readCells (encode r) = .ok (rawOf r) := by
  refine (bind_of_ok (text_of_place 0 (by decide) rfl)).trans ?_
  refine (bind_of_ok (text_of_place 1 (by decide) rfl)).trans ?_
  refine (bind_of_ok (text_of_place 2 (by decide) rfl)).trans ?_
  refine (bind_of_ok (text?_of_place 3 (by decide) rfl)).trans ?_
  refine (bind_of_ok (text?_of_place 4 (by decide) rfl)).trans ?_
  refine (bind_of_ok (text_of_place 5 (by decide) rfl)).trans ?_
  refine (bind_of_ok (text_of_place 6 (by decide) rfl)).trans ?_
  refine (bind_of_ok (text_of_place 7 (by decide) rfl)).trans ?_
  refine (bind_of_ok (text_of_place 8 (by decide) rfl)).trans ?_
  refine (bind_of_ok (integer_of_place 9 (by decide) rfl)).trans ?_
  refine (bind_of_ok (text_of_place 10 (by decide) rfl)).trans ?_
  refine (bind_of_ok (text_of_place 11 (by decide) rfl)).trans ?_
  rfl

theorem decode_rawOf {r : Resource} (h : Fits r) : (rawOf r).decode = .ok r := by
  have hinstant : readInstant r.ingestedAt.storedText = .ok r.ingestedAt := by
    rw [readInstant, Time.Timestamp.parse_storedText h.ingestedAt]
  have hclassification : readClassification r.classification.name = .ok r.classification := by
    rw [readClassification, ofName?_classification]
  have hstatus : readStatus r.status.name = .ok r.status := by
    rw [readStatus, ofName?_status]
  have hwarnings : readWarnings (Json.writeStrings r.warnings) = .ok r.warnings := by
    rw [readWarnings, Json.readStrings_writeStrings]
  refine (bind_of_ok hinstant).trans ?_
  refine (bind_of_ok hclassification).trans ?_
  refine (bind_of_ok hstatus).trans ?_
  refine (bind_of_ok hwarnings).trans ?_
  show Except.ok _ = Except.ok r
  rw [rawOf, toSigned64_of_lt h.sizeBytes, Int.toNat_natCast]

end ResourceRow

end CodeIndex.Store
