import CodeIndex.Json.StringList
/-!
# Reading back a list of strings

What is written of a list of strings reads back as that list (`readStrings_writeStrings`). The
reader keeps what it has read for its errors; here only what is left of the text matters.
-/

namespace CodeIndex.Json

open CodeIndex.Digest (hexValue?)

/-! ### Cursors -/

namespace Cursor

theorem rest_next (c : Cursor) : c.next.rest = c.rest.drop 1 := by
  rw [next]
  split
  · rename_i h
    rw [h]
    rfl
  · rename_i h
    rw [h]
    rfl

theorem rest_skip (c : Cursor) (n : Nat) : (c.skip n).rest = c.rest.drop n := by
  induction n generalizing c with
  | zero => rfl
  | succ n ih => rw [skip, ih, rest_next, List.drop_drop, Nat.add_comm]

/-- Nothing is skipped in front of a character that is no white space. -/
theorem skipBlank_of_rest {c : Cursor} {x : Char} {rest : List Char} (h : c.rest = x :: rest)
    (hx : (x == ' ' || x == '\n' || x == '\t' || x == '\r') = false) : c.skipBlank = c := by
  rw [skipBlank, h, List.takeWhile_cons_of_neg (by simp [hx])]
  rfl

theorem skipBlank_of_nil {c : Cursor} (h : c.rest = []) : c.skipBlank = c := by
  rw [skipBlank, h]
  rfl

end Cursor

/-! ### Strings -/

theorem hexValue?_digitChar : ∀ n < 16, hexValue? (Nat.digitChar n) = some n := by
  decide

/-- The escape of a control character without a short one. -/
theorem readUnicodeEscape_eq {c : Cursor} {n : Nat} {tail : List Char} (hn : n < 32)
    (h : c.rest = '0' :: '0' :: Nat.digitChar (n / 16) :: Nat.digitChar (n % 16) :: tail) :
    readUnicodeEscape c = .ok (Char.ofNat n, c.skip 4) := by
  have hhigh := hexValue?_digitChar (n / 16) (by omega)
  have hlow := hexValue?_digitChar (n % 16) (by omega)
  have hzero : hexValue? '0' = some 0 := by decide
  have hread : readHex4 c = .ok (n, c.skip 4) := by
    rw [readHex4, h]
    simp only [hzero, hhigh, hlow]
    congr 2
    omega
  rw [readUnicodeEscape, hread]
  show (if 0xDC00 ≤ n ∧ n ≤ 0xDFFF then _ else _) = _
  rw [if_neg (by omega), if_neg (by omega)]

/-- The letters of short escapes, each with the character it stands for. -/
def shortEscapes : List (Char × Char) :=
  [('"', '"'), ('\\', '\\'), ('n', '\n'), ('r', '\r'), ('t', '\t'), ('b', '\x08'), ('f', '\x0c')]

/-- A character is written as a short escape, as a `\u` escape, or as itself. -/
theorem escapeChar_cases (x : Char) :
    (∃ e, (e, x) ∈ shortEscapes ∧ escapeChar x = ['\\', e]) ∨
    (x.toNat < 32 ∧ escapeChar x
      = ['\\', 'u', '0', '0', Nat.digitChar (x.toNat / 16), Nat.digitChar (x.toNat % 16)]) ∨
    (x ≠ '"' ∧ x ≠ '\\' ∧ 32 ≤ x.toNat ∧ escapeChar x = [x]) := by
  have hshort : ∀ e y : Char, (e, y) ∈ shortEscapes → x = y → escapeChar y = ['\\', e] →
      ∃ e, (e, x) ∈ shortEscapes ∧ escapeChar x = ['\\', e] := by
    rintro e y hmem rfl hescape
    exact ⟨e, hmem, hescape⟩
  by_cases hquote : x = '"'
  · exact Or.inl (hshort '"' '"' (by decide) hquote (by decide))
  by_cases hslash : x = '\\'
  · exact Or.inl (hshort '\\' '\\' (by decide) hslash (by decide))
  by_cases hn : x = '\n'
  · exact Or.inl (hshort 'n' '\n' (by decide) hn (by decide))
  by_cases hr : x = '\r'
  · exact Or.inl (hshort 'r' '\r' (by decide) hr (by decide))
  by_cases ht : x = '\t'
  · exact Or.inl (hshort 't' '\t' (by decide) ht (by decide))
  -- The writer tells these two by their numbers.
  by_cases hb : x.toNat = 8
  · have hx : x = '\x08' := Char.toNat_inj.mp hb
    exact Or.inl (hshort 'b' '\x08' (by decide) hx (by decide))
  by_cases hf : x.toNat = 12
  · have hx : x = '\x0c' := Char.toNat_inj.mp hf
    exact Or.inl (hshort 'f' '\x0c' (by decide) hx (by decide))
  refine Or.inr ?_
  by_cases hcontrol : x.toNat < 32
  · refine Or.inl ⟨hcontrol, ?_⟩
    simp [escapeChar, hquote, hslash, hn, hr, ht, hb, hf, hcontrol]
  · refine Or.inr ⟨hquote, hslash, Nat.le_of_not_lt hcontrol, ?_⟩
    simp [escapeChar, hquote, hslash, hn, hr, ht, hb, hf, hcontrol]

section Strings

variable (read : List Char) {c : Cursor} {tail : List Char} (fuel : Nat)

theorem readStringFrom_short {e x : Char} (hmem : (e, x) ∈ shortEscapes)
    (h : c.rest = '\\' :: e :: tail) :
    readStringFrom read c (fuel + 1) = readStringFrom (x :: read) (c.skip 2) fuel := by
  simp only [shortEscapes, List.mem_cons, Prod.mk.injEq, List.not_mem_nil, or_false] at hmem
  rw [readStringFrom, h]
  rcases hmem with ⟨rfl, rfl⟩ | ⟨rfl, rfl⟩ | ⟨rfl, rfl⟩ | ⟨rfl, rfl⟩ | ⟨rfl, rfl⟩ | ⟨rfl, rfl⟩ |
    ⟨rfl, rfl⟩ <;> rfl

theorem readStringFrom_unicode {x : Char} (hx : x.toNat < 32)
    (h : c.rest = '\\' :: 'u' :: '0' :: '0' :: Nat.digitChar (x.toNat / 16) ::
      Nat.digitChar (x.toNat % 16) :: tail) :
    readStringFrom read c (fuel + 1) = readStringFrom (x :: read) ((c.skip 2).skip 4) fuel := by
  have hrest : (c.skip 2).rest = '0' :: '0' :: Nat.digitChar (x.toNat / 16) ::
      Nat.digitChar (x.toNat % 16) :: tail := by
    rw [Cursor.rest_skip, h]
    rfl
  rw [readStringFrom, h]
  show (readUnicodeEscape (c.skip 2) >>= fun p => readStringFrom (p.1 :: read) p.2 fuel) = _
  rw [readUnicodeEscape_eq hx hrest, Char.ofNat_toNat]
  rfl

theorem readStringFrom_plain {x : Char} (hquote : x ≠ '"') (hslash : x ≠ '\\')
    (hx : 32 ≤ x.toNat) (h : c.rest = x :: tail) :
    readStringFrom read c (fuel + 1) = readStringFrom (x :: read) c.next fuel := by
  rw [readStringFrom, h]
  split
  · rename_i heq
    cases heq
  · rename_i heq
    exact absurd (List.cons.inj heq).1 hquote
  · rename_i heq
    exact absurd (List.cons.inj heq).1 hslash
  · rename_i heq
    exact absurd (List.cons.inj heq).1 hslash
  · rename_i heq
    obtain ⟨rfl, -⟩ := List.cons.inj heq
    rw [if_neg (by omega)]

/-- The reader takes one character back from its escaped form. -/
theorem readStringFrom_escapeChar (x : Char) (h : c.rest = escapeChar x ++ tail) :
    ∃ c' : Cursor, c'.rest = tail ∧
      readStringFrom read c (fuel + 1) = readStringFrom (x :: read) c' fuel := by
  rcases escapeChar_cases x with ⟨e, hmem, hescape⟩ | ⟨hx, hescape⟩ | ⟨hquote, hslash, hx, hescape⟩
  · rw [hescape] at h
    exact ⟨c.skip 2, by rw [Cursor.rest_skip, h]; rfl, readStringFrom_short read fuel hmem h⟩
  · rw [hescape] at h
    simp only [List.cons_append, List.nil_append] at h
    refine ⟨(c.skip 2).skip 4, ?_, readStringFrom_unicode read fuel hx h⟩
    rw [Cursor.rest_skip, Cursor.rest_skip, h]
    rfl
  · rw [hescape] at h
    exact ⟨c.next, by rw [Cursor.rest_next, h]; rfl,
      readStringFrom_plain read fuel hquote hslash hx h⟩

/-- The reader takes a whole string back, with one unit of fuel for every character. -/
theorem readStringFrom_escaped (cs : List Char) (hfuel : cs.length < fuel)
    (h : c.rest = cs.flatMap escapeChar ++ '"' :: tail) :
    ∃ c' : Cursor, c'.rest = tail ∧
      readStringFrom read c fuel = .ok (String.ofList (read.reverse ++ cs), c') := by
  induction cs generalizing read c fuel with
  | nil =>
    obtain ⟨fuel, rfl⟩ := Nat.exists_eq_add_of_lt hfuel
    refine ⟨c.next, by rw [Cursor.rest_next, h]; rfl, ?_⟩
    rw [readStringFrom, h, List.append_nil]
    rfl
  | cons x cs ih =>
    obtain ⟨fuel, rfl⟩ := Nat.exists_eq_succ_of_ne_zero (Nat.ne_of_gt (Nat.zero_lt_of_lt hfuel))
    rw [List.flatMap_cons, List.append_assoc] at h
    obtain ⟨c₁, hrest, hstep⟩ := readStringFrom_escapeChar read fuel x h
    obtain ⟨c₂, htail, hread⟩ := ih (x :: read) fuel (Nat.lt_of_succ_lt_succ hfuel) hrest
    refine ⟨c₂, htail, ?_⟩
    rw [hstep, hread, List.reverse_cons, List.append_assoc]
    rfl

end Strings

/-! ### Lists -/

theorem toList_quote (s : String) :
    (quote s).toList = '"' :: (s.toList.flatMap escapeChar ++ ['"']) := by
  rw [quote, String.toList_ofList]
  rfl

theorem escapeChar_ne_nil (x : Char) : escapeChar x ≠ [] := by
  rcases escapeChar_cases x with ⟨e, -, h⟩ | ⟨-, h⟩ | ⟨-, -, -, h⟩ <;> rw [h] <;> simp

/-- Escaping makes no text shorter. -/
theorem length_le_length_escaped (cs : List Char) :
    cs.length ≤ (cs.flatMap escapeChar).length := by
  induction cs with
  | nil => exact Nat.le_refl _
  | cons x cs ih =>
    have := List.length_pos_iff.mpr (escapeChar_ne_nil x)
    rw [List.flatMap_cons, List.length_append, List.length_cons]
    omega

theorem readItem_quote (s : String) {c : Cursor} {tail : List Char}
    (h : c.rest = (quote s).toList ++ tail) :
    ∃ c' : Cursor, c'.rest = tail ∧ readItem c = .ok (s, c') := by
  rw [toList_quote, List.cons_append, List.append_assoc, List.singleton_append] at h
  have hrest : c.next.rest = s.toList.flatMap escapeChar ++ '"' :: tail := by
    rw [Cursor.rest_next, h]
    rfl
  have hfuel : s.toList.length < c.next.rest.length + 1 := by
    have := length_le_length_escaped s.toList
    rw [hrest, List.length_append]
    omega
  obtain ⟨c', htail, hread⟩ := readStringFrom_escaped [] _ s.toList hfuel hrest
  refine ⟨c', htail, ?_⟩
  rw [readItem, h]
  show readString c.next = _
  rw [readString, hread, List.reverse_nil, List.nil_append, String.ofList_toList]

/-- The text of the strings behind the first, up to the closing bracket. -/
theorem toList_compactItems_cons (s : String) (items : List String) :
    (compactItems ((s :: items).map Json.str)).toList
      = ',' :: ((quote s).toList ++ (compactItems (items.map Json.str)).toList) := by
  rw [List.map_cons, compactItems, compact, String.toList_append, String.toList_append]
  rfl

theorem readItems_compactItems (items read : List String) {c : Cursor} {tail : List Char}
    (fuel : Nat) (hfuel : items.length < fuel)
    (h : c.rest = (compactItems (items.map Json.str)).toList ++ tail) :
    ∃ c' : Cursor, c'.rest = tail ∧ readItems read c fuel = .ok (read.reverse ++ items, c') := by
  induction items generalizing read c fuel with
  | nil =>
    obtain ⟨fuel, rfl⟩ := Nat.exists_eq_succ_of_ne_zero (Nat.ne_of_gt hfuel)
    have hrest : c.rest = ']' :: tail := h
    refine ⟨c.next, by rw [Cursor.rest_next, hrest]; rfl, ?_⟩
    simp only [readItems, Cursor.skipBlank_of_rest hrest (by decide), hrest, List.append_nil]
  | cons s items ih =>
    obtain ⟨fuel, rfl⟩ := Nat.exists_eq_succ_of_ne_zero (Nat.ne_of_gt (Nat.zero_lt_of_lt hfuel))
    rw [toList_compactItems_cons, List.cons_append, List.append_assoc] at h
    have hnext : c.next.rest
        = (quote s).toList ++ ((compactItems (items.map Json.str)).toList ++ tail) := by
      rw [Cursor.rest_next, h]
      rfl
    obtain ⟨c₁, hrest, hitem⟩ := readItem_quote s hnext
    obtain ⟨c₂, htail, hitems⟩ := ih (s :: read) fuel (Nat.lt_of_succ_lt_succ hfuel) hrest
    rw [toList_quote, List.cons_append] at hnext
    refine ⟨c₂, htail, ?_⟩
    simp only [readItems, Cursor.skipBlank_of_rest h (by decide), h,
      Cursor.skipBlank_of_rest hnext (by decide), hnext, hitem]
    show readItems (s :: read) c₁ fuel = _
    rw [hitems, List.reverse_cons, List.append_assoc]
    rfl

theorem length_lt_length_compactItems (items : List String) :
    items.length < (compactItems (items.map Json.str)).toList.length := by
  induction items with
  | nil => decide
  | cons s items ih =>
    rw [toList_compactItems_cons, List.length_cons, List.length_cons, List.length_append]
    omega

theorem readList_compactItems (s : String) (items : List String) {c : Cursor} {tail : List Char}
    (h : c.rest = (quote s).toList ++ ((compactItems (items.map Json.str)).toList ++ tail)) :
    ∃ c' : Cursor, c'.rest = tail ∧ readList c = .ok (s :: items, c') := by
  obtain ⟨c₁, hrest, hitem⟩ := readItem_quote s h
  have hfuel : items.length < c₁.rest.length + 1 := by
    have := length_lt_length_compactItems items
    rw [hrest, List.length_append]
    omega
  obtain ⟨c₂, htail, hitems⟩ := readItems_compactItems items [s] _ hfuel hrest
  refine ⟨c₂, htail, ?_⟩
  rw [toList_quote, List.cons_append] at h
  simp only [readList, Cursor.skipBlank_of_rest h (by decide), h, hitem]
  exact hitems

theorem readStrings_of_toList {text s : String} {items : List String}
    (h : text.toList
      = '[' :: ((quote s).toList ++ ((compactItems (items.map Json.str)).toList ++ []))) :
    readStrings text = .ok (s :: items) := by
  have hstart : (Cursor.mk [] text.toList).rest = _ := h
  have hnext : (Cursor.mk [] text.toList).next.rest
      = (quote s).toList ++ ((compactItems (items.map Json.str)).toList ++ []) := by
    rw [Cursor.rest_next, hstart]
    rfl
  obtain ⟨c, hend, hlist⟩ := readList_compactItems s items hnext
  simp only [readStrings, Cursor.skipBlank_of_rest hstart (by decide), hstart, hlist]
  show (if c.skipBlank.rest.isEmpty then _ else _) = _
  rw [Cursor.skipBlank_of_nil hend, hend]
  rfl

/-- A list of strings reads back as itself. -/
theorem readStrings_writeStrings (items : List String) :
    readStrings (writeStrings items) = .ok items := by
  cases items with
  | nil => rfl
  | cons s items =>
    refine readStrings_of_toList ?_
    rw [writeStrings, strs, List.map_cons, compact, compact, String.toList_append,
      String.toList_append, List.append_nil]
    rfl

end CodeIndex.Json
