import ConnectionSecurity.Proofs.Toml.Document
import ConnectionSecurity.Proofs.Waiver.Table

/-!
# A table and its document

A table whose rows stand in ascending order is read back from its own document (`parse?_print`),
whatever the names of the connections are. Every table that is read is of this kind, and stays so
when a row is put into it (`ascending_parse?`, `Ascending.put`), so nothing is lost on the way to a
file and back.

The ascending order carries the proof twice: names that ascend are different, so the document names
no table twice; and a row whose name comes last is put at the end.
-/

namespace ConnectionSecurity.Waiver.Table

open Toml

variable {t : Table} {rows before : List (String × Row)} {uuid : String} {r : Row}

/-! ## Ascending order -/

/-- The rows stand in the order of their names. -/
def Ascending (t : Table) : Prop := t.rows.Pairwise (·.1 < ·.1)

theorem ascending_empty : Ascending {} := .nil

theorem mem_putInto {e : String × Row} (h : e ∈ putInto uuid r rows) :
    e = (uuid, r) ∨ e ∈ rows := by
  induction rows with
  | nil => exact .inl (List.mem_singleton.1 h)
  | cons f rows ih =>
      simp only [putInto] at h
      split at h
      next =>
        rcases List.mem_cons.1 h with h | h
        · exact .inl h
        · exact .inr (List.mem_cons_of_mem _ h)
      next =>
        split at h
        next => exact List.mem_cons.1 h
        next =>
          rcases List.mem_cons.1 h with rfl | h
          · exact .inr List.mem_cons_self
          · exact (ih h).imp_right (List.mem_cons_of_mem _)

theorem pairwise_putInto (h : rows.Pairwise (·.1 < ·.1)) (uuid : String) (r : Row) :
    (putInto uuid r rows).Pairwise (·.1 < ·.1) := by
  induction rows with
  | nil => exact List.pairwise_singleton _ _
  | cons f rows ih =>
      obtain ⟨hf, hrows⟩ := List.pairwise_cons.1 h
      simp only [putInto]
      split
      next heq =>
        subst heq
        exact List.pairwise_cons.2 ⟨hf, hrows⟩
      next hne =>
        split
        next hlt =>
          refine List.pairwise_cons.2 ⟨fun e he => ?_, h⟩
          rcases List.mem_cons.1 he with rfl | he
          · exact hlt
          · exact String.lt_trans hlt (hf e he)
        next hnlt =>
          have hlt : f.1 < uuid :=
            String.not_le.1 fun hle => hne (String.le_antisymm hle (String.not_lt.1 hnlt))
          refine List.pairwise_cons.2 ⟨fun e he => ?_, ih hrows⟩
          rcases mem_putInto he with rfl | he
          · exact hlt
          · exact hf e he

theorem Ascending.put (h : t.Ascending) (uuid : String) (r : Row) : (t.put uuid r).Ascending :=
  pairwise_putInto h uuid r

/-- A row whose name comes behind all others is put at the end. -/
theorem putInto_last (h : ∀ e ∈ rows, e.1 < uuid) : putInto uuid r rows = rows ++ [(uuid, r)] := by
  induction rows with
  | nil => rfl
  | cons f rows ih =>
      obtain ⟨hf, hrows⟩ := List.forall_mem_cons.1 h
      have hne : uuid ≠ f.1 := by
        rintro rfl
        exact String.lt_irrefl _ hf
      simp only [putInto]
      rw [if_neg hne, if_neg (String.lt_asymm hf), ih hrows, List.cons_append]

/-! ## The rows of a document -/

theorem ascending_ofRows? {v : Value} (h : ofRows? v = some t) : t.Ascending := by
  cases v with
  | table entries =>
      have hfold : ∀ (entries : List (String × Value)) (s : Table), s.Ascending →
          entries.foldlM (fun t e => (ofRowValue? e.2).map fun r => t.put e.1 r) s = some t →
          t.Ascending := by
        intro entries
        induction entries with
        | nil =>
            intro s hs h
            cases h
            exact hs
        | cons e entries ih =>
            intro s hs h
            rw [List.foldlM_cons] at h
            obtain ⟨s', hs', h⟩ := Option.bind_eq_some_iff.1 h
            obtain ⟨r, -, rfl⟩ := Option.map_eq_some_iff.1 hs'
            exact ih _ (hs.put e.1 r) h
      exact hfold entries {} ascending_empty h
  | _ => cases h

/-- Every table that is read has its rows in order. -/
theorem ascending_parse? {text : String} (h : parse? text = some t) : t.Ascending := by
  obtain ⟨entries, -, h⟩ := Option.bind_eq_some_iff.1 h
  unfold Fields.withDefault at h
  split at h
  next =>
    cases h
    exact ascending_empty
  next => exact ascending_ofRows? h

theorem ofRows?_map (h : (before ++ rows).Pairwise (·.1 < ·.1)) :
    (rows.map fun (uuid, r) => (uuid, rowValue r)).foldlM
      (fun t (uuid, v) => (ofRowValue? v).map fun r => put t uuid r) ⟨before⟩ =
      some ⟨before ++ rows⟩ := by
  induction rows generalizing before with
  | nil =>
      rw [List.append_nil]
      rfl
  | cons e rows ih =>
      obtain ⟨uuid, r⟩ := e
      have hlast : ∀ e ∈ before, e.1 < uuid := by
        intro e he
        exact (List.pairwise_append.1 h).2.2 e he _ List.mem_cons_self
      rw [List.append_cons] at h
      rw [List.map_cons, List.foldlM_cons, List.append_cons, ← ih h]
      show Option.bind (some (put ⟨before⟩ uuid r)) _ = _
      rw [put, putInto_last hlast]
      rfl

/-! ## The text -/

/-- The values in a row of a document. -/
def rowEntries (r : Row) : List (String × Value) :=
  [("ignore-ca-cert", .boolean r.outer), ("ignore-phase2-ca-cert", .boolean r.inner)]

theorem rowValue_eq (r : Row) : rowValue r = .table (rowEntries r) := rfl

/-- The written form of a row. -/
def rowText (e : String × Row) : List Char :=
  writeHeader ["connections", e.1] ++ writeLines (rowEntries e.2)

/-- What a row is read as. -/
def rowStatements (e : String × Row) : List Statement :=
  .header false ["connections", e.1] :: (rowEntries e.2).map fun f => .line [f.1] f.2

theorem writes_row (e : String × Row) : Writes (rowText e) (rowStatements e) := by
  have hlines : Writes (writeLines (rowEntries e.2))
      ((rowEntries e.2).map fun f => .line [f.1] f.2) := by
    refine .lines fun f hf => ?_
    simp only [rowEntries, List.mem_cons, List.not_mem_nil, or_false] at hf
    rcases hf with rfl | rfl <;> exact ⟨rfl, readBack_boolean _⟩
  exact (Writes.header (by simp [partLimit])).append hlines

theorem blocks_row (e : String × Row) :
    blocks ["connections", e.1] (rowValue e.2) = [rowText e] := by
  simp [rowValue_eq, rowText, rowEntries, blocks, blocksBelow, writeLines, Value.isTable,
    writeHeader]

theorem blocksBelow_rows (rows : List (String × Row)) :
    blocksBelow ["connections"] (rows.map fun e => (e.1, rowValue e.2)) = rows.map rowText := by
  induction rows with
  | nil => simp [blocksBelow]
  | cons e rows ih =>
      rw [List.map_cons, blocksBelow, ih]
      show blocks ["connections", e.1] (rowValue e.2) ++ _ = _
      rw [blocks_row, List.singleton_append, List.map_cons]

theorem writeLines_rows (rows : List (String × Row)) :
    writeLines (rows.map fun e => (e.1, rowValue e.2)) = [] := by
  induction rows with
  | nil => rfl
  | cons e rows ih => simpa [writeLines, rowValue_eq, Value.isTable] using ih

/-- The text of a document. Without rows it is a header. -/
def text : List (String × Row) → List Char
  | [] => writeHeader ["connections"]
  | e :: rows => ['\n'].intercalate ((e :: rows).map rowText)

theorem print_eq (t : Table) : t.print = String.ofList (text t.rows) := by
  show String.ofList (['\n'].intercalate (blocks []
    (.table [("connections", .table (t.rows.map fun e => (e.1, rowValue e.2)))]))) = _
  have hbelow : blocks ["connections"] (.table (t.rows.map fun e => (e.1, rowValue e.2))) =
      (if t.rows = [] then [writeHeader ["connections"]] else []) ++ t.rows.map rowText := by
    rw [blocks, writeLines_rows, blocksBelow_rows]
    cases t.rows with
    | nil => simp [writeHeader]
    | cons e rows => simp [rowValue_eq, Value.isTable]
  have hblocks : blocks []
      (.table [("connections", .table (t.rows.map fun e => (e.1, rowValue e.2)))]) =
      (if t.rows = [] then [writeHeader ["connections"]] else []) ++ t.rows.map rowText := by
    rw [← hbelow]
    simp [blocks, blocksBelow, writeLines, Value.isTable]
  rw [hblocks]
  cases t.rows with
  | nil => simp [text, List.intercalate]
  | cons e rows => rfl

/-! ## The table that the statements build -/

/-- What a row is while a document is read. -/
def rowDraft (e : String × Row) : String × Draft :=
  (e.1, .table .header ((rowEntries e.2).map fun f => (f.1, .value f.2)))

/-- A document of which some rows have been read. -/
def draft : List (String × Row) → Entries
  | [] => []
  | e :: rows => [("connections", .table .passing ((e :: rows).map rowDraft))]

theorem lookup_rows (h : ∀ e ∈ rows, e.1 ≠ uuid) : (rows.map rowDraft).lookup uuid = none := by
  rw [List.lookup_eq_none_iff]
  intro e he
  obtain ⟨f, hf, rfl⟩ := List.mem_map.1 he
  simpa [rowDraft] using Ne.symm (h f hf)

theorem draft_append (rows : List (String × Row)) (e : String × Row) :
    draft (rows ++ [e]) =
      [("connections", .table .passing (rows.map rowDraft ++ [rowDraft e]))] := by
  cases rows <;> simp [draft]

/-- A document in which the last row is being read. -/
def opened (rows : List (String × Row)) (uuid : String) (entries : Entries) : Entries :=
  [("connections", .table .passing (rows.map rowDraft ++ [(uuid, .table .header entries)]))]

theorem openTable_draft (h : ∀ e ∈ rows, e.1 ≠ uuid) :
    (draft rows).openTable false ["connections", uuid] = some (opened rows uuid []) := by
  have hnew := Entries.openTable_new (lookup_rows h)
  cases rows with
  | nil =>
      rw [draft, Entries.openTable_through_new (by simp) rfl]
      rfl
  | cons e rows =>
      have hlast : Entries.openTable false ["connections", uuid]
          ([] ++ [("connections", .table .passing ((e :: rows).map rowDraft))]) = _ :=
        Entries.openTable_through_last (by simp) rfl
      rw [hnew] at hlast
      exact hlast

theorem within_opened (h : ∀ e ∈ rows, e.1 ≠ uuid) {entries : Entries} {key : String}
    (hkey : entries.lookup key = none) (v : Value) :
    (opened rows uuid entries).within (·.assign true v [key]) ["connections", uuid] =
      some (opened rows uuid (entries ++ [(key, .value v)])) := by
  have hinner : Entries.within (·.assign true v [key]) [uuid]
      (rows.map rowDraft ++ [(uuid, .table .header entries)]) =
      some (rows.map rowDraft ++ [(uuid, .table .header (entries ++ [(key, .value v)]))]) := by
    rw [Entries.within_last _ (lookup_rows h), Entries.within, Entries.assign_new hkey]
    rfl
  have houter : Entries.within (·.assign true v [key]) ["connections", uuid]
      ([] ++ [("connections", .table .passing
        (rows.map rowDraft ++ [(uuid, .table .header entries)]))]) = _ :=
    Entries.within_last _ rfl
  rw [hinner] at houter
  exact houter

theorem extend_row (h : ∀ e ∈ rows, e.1 ≠ uuid) (path : List String) :
    (rowStatements (uuid, r)).foldlM extend (path, draft rows) =
      some (["connections", uuid], draft (rows ++ [(uuid, r)])) := by
  have hheader : extend (path, draft rows) (.header false ["connections", uuid]) =
      some (["connections", uuid], opened rows uuid []) := by
    rw [extend, openTable_draft h]
    rfl
  have hline (entries : Entries) {key : String} (hkey : entries.lookup key = none) (v : Value) :
      extend (["connections", uuid], opened rows uuid entries) (.line [key] v) =
        some (["connections", uuid], opened rows uuid (entries ++ [(key, .value v)])) := by
    rw [extend, within_opened h hkey]
    rfl
  simp only [rowStatements, rowEntries, List.map_cons, List.map_nil, List.foldlM_cons,
    List.foldlM_nil, hheader, Option.bind_eq_bind, Option.bind_some]
  rw [hline [] rfl, Option.bind_some, hline _ (by simp), Option.bind_some, draft_append]
  rfl

theorem extend_rows (before : List (String × Row)) (h : (before ++ rows).Pairwise (·.1 < ·.1))
    (path : List String) :
    ∃ path', (rows.flatMap rowStatements).foldlM extend (path, draft before) =
      some (path', draft (before ++ rows)) := by
  induction rows generalizing before path with
  | nil => exact ⟨path, by rw [List.append_nil]; rfl⟩
  | cons e rows ih =>
      have hnew : ∀ f ∈ before, f.1 ≠ e.1 := by
        intro f hf heq
        have hlt := (List.pairwise_append.1 h).2.2 f hf e List.mem_cons_self
        exact String.lt_irrefl _ (heq ▸ hlt)
      rw [List.append_cons] at h ⊢
      obtain ⟨path', hrows⟩ := ih _ h ["connections", e.1]
      refine ⟨path', ?_⟩
      rw [List.flatMap_cons, List.foldlM_append, extend_row hnew]
      exact hrows

theorem valuesOf_rows (rows : List (String × Row)) :
    Draft.valuesOf (rows.map rowDraft) = rows.map fun e => (e.1, rowValue e.2) := by
  induction rows with
  | nil => simp [Draft.valuesOf]
  | cons e rows ih =>
      rw [List.map_cons, List.map_cons, ← ih]
      simp [rowDraft, rowEntries, rowValue_eq, Draft.valuesOf, Draft.toValue]

/-! ## There and back -/

theorem head?_text (rows : List (String × Row)) : (text rows).head? = some '[' := by
  cases rows with
  | nil => rfl
  | cons e rows => cases rows <;> simp [text, rowText, writeHeader, List.intercalate]

theorem read?_text (h : rows.Pairwise (·.1 < ·.1)) : read? (String.ofList (text rows)) =
    some [("connections", .table (rows.map fun e => (e.1, rowValue e.2)))] := by
  have hmark : (text rows).head? ≠ some '\uFEFF' := by
    rw [head?_text]
    decide
  cases rows with
  | nil =>
      have hwrites : Writes (text []) _ := .header (by simp [partLimit])
      rw [hwrites.read?_eq hmark]
      simp [extend, Entries.openTable, Entries.put, Draft.valuesOf, Draft.toValue]
  | cons e rows =>
      have hwrites : Writes (text (e :: rows)) ((e :: rows).flatMap rowStatements) :=
        .intercalate _ fun f _ => writes_row f
      obtain ⟨path, hbuilt⟩ : ∃ path, ((e :: rows).flatMap rowStatements).foldlM extend ([], []) =
          some (path, draft (e :: rows)) := extend_rows [] h []
      rw [hwrites.read?_eq hmark, hbuilt, Option.map_some, draft, ← valuesOf_rows]
      simp [Draft.valuesOf, Draft.toValue]

/-- **A table is read back from its document.** -/
theorem parse?_print (h : t.Ascending) : parse? t.print = some t := by
  have hrows : ofRows? (.table (t.rows.map fun e => (e.1, rowValue e.2))) = some t :=
    ofRows?_map h
  rw [parse?, print_eq, read?_text h, ← hrows]
  rfl

end ConnectionSecurity.Waiver.Table
