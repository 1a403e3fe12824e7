import Mathlib.Data.List.Nodup
import ConnectionSecurity.Proofs.Toml.Inline

/-!
# Tables in tables are read as they are written

A table is written as blocks, one for each table in it, and read back with the same values under the
same names; only the order may be another, since the lines of a table stand before its tables
(`settled`). This file takes the two steps of reading one after the other. The blocks are cut into
the statements they were written from (`Regular.writesBlocks`). The statements then build the table:
the table that grows is always the last on its level, so what is under construction is a stack of
frames with a hole at the end (`fill`), and a header or a line works in the hole alone.

A table that holds nothing but tables has no header of its own. The next header passes through it
as if it stood there with nothing in it, and from then on it does.
-/

namespace ConnectionSecurity.Toml

variable {depth : Nat} {es entries : List (String × Value)} {path : List String} {key : String}
  {v : Value}

/-! ## Lines first -/

/-- The entries of a table that are lines. -/
def linesOf (es : List (String × Value)) : List (String × Value) := es.filter (!·.2.isTable)

mutual

/-- A value with the lines of its tables before the tables in them. -/
def Value.settled : Value → Value
  | .table entries => .table (linesOf entries ++ settledTables entries)
  | v => v

/-- The tables among entries, settled. -/
def settledTables : List (String × Value) → List (String × Value)
  | [] => []
  | (n, v) :: es => if v.isTable then (n, v.settled) :: settledTables es else settledTables es

end

/-- The entries of a table, its lines first. -/
def settledEntries (es : List (String × Value)) : List (String × Value) :=
  linesOf es ++ settledTables es

theorem Value.settled_table (es : List (String × Value)) :
    (Value.table es).settled = .table (settledEntries es) := rfl

theorem Value.settled_of_not_isTable (h : v.isTable = false) : v.settled = v := by
  cases v with
  | table es => cases h
  | _ => rfl

/-- A table that can be written: no name stands twice in it, its lines are values that need no
header, and it has at most so many levels of tables. -/
inductive Regular : Nat → List (String × Value) → Prop
  | intro (depth : Nat) (es : List (String × Value)) (names : (es.map (·.1)).Nodup)
      (lines : ∀ e ∈ es, e.2.isTable = false → Inline depthLimit e.2)
      (tables : ∀ n sub, (n, Value.table sub) ∈ es → Regular depth sub) : Regular (depth + 1) es

/-! ## Statements -/

/-- A table has no header of its own if only tables stand under it, and the whole document has none
in any case. -/
def hidesHeader (path : List String) (es : List (String × Value)) : Bool :=
  path.isEmpty || ((linesOf es).isEmpty && es.any (·.2.isTable))

/-- The block of a table: its header and its lines. -/
def ownBlock (path : List String) (es : List (String × Value)) : List Char :=
  (if hidesHeader path es then [] else writeHeader path) ++ writeLines es

/-- The statements in this block. -/
def ownStatements (path : List String) (es : List (String × Value)) : List Statement :=
  (if hidesHeader path es then [] else [.header false path]) ++
    (linesOf es).map fun e => .line [e.1] e.2

mutual

/-- The statements that a table is written as. -/
def tableStatements (path : List String) : Value → List Statement
  | .table es => ownStatements path es ++ statementsBelow path es
  | _ => []

/-- The statements of the tables among the entries of a table. -/
def statementsBelow (path : List String) : List (String × Value) → List Statement
  | [] => []
  | (n, v) :: es => tableStatements (path ++ [n]) v ++ statementsBelow path es

end

/-- Blocks are read as statements wherever they stand. -/
inductive WritesBlocks : List (List Char) → List Statement → Prop
  | nil : WritesBlocks [] []
  | cons {cs : List Char} {ss : List Statement} {css : List (List Char)} {sss : List Statement}
      (h : Writes cs ss) (hs : WritesBlocks css sss) : WritesBlocks (cs :: css) (ss ++ sss)

namespace WritesBlocks

variable {css dss : List (List Char)} {ss ts : List Statement}

theorem append (hc : WritesBlocks css ss) (hd : WritesBlocks dss ts) :
    WritesBlocks (css ++ dss) (ss ++ ts) := by
  induction hc with
  | nil => exact hd
  | cons h _ ih =>
      rw [List.cons_append, List.append_assoc]
      exact .cons h ih

/-- Blocks with empty lines between them. -/
theorem writes (h : WritesBlocks css ss) : Writes (['\n'].intercalate css) ss := by
  induction h with
  | nil => exact .nil
  | @cons cs ss css sss h hs ih =>
      cases hs with
      | nil => simpa [List.intercalate] using h
      | cons h' hs' => simpa [List.intercalate] using h.append (Writes.lineBreak.append ih)

end WritesBlocks

theorem writeLines_linesOf (es : List (String × Value)) :
    writeLines (linesOf es) = writeLines es := by
  induction es with
  | nil => rfl
  | cons e es ih =>
      cases htable : e.2.isTable with
      | true => simpa [linesOf, writeLines, htable] using ih
      | false => simpa [linesOf, writeLines, htable] using ih

theorem isEmpty_writeLines (es : List (String × Value)) :
    (writeLines es).isEmpty = (linesOf es).isEmpty := by
  rw [← writeLines_linesOf]
  cases hlines : linesOf es with
  | nil => rfl
  | cons e lines =>
      have he : e ∈ linesOf es := hlines ▸ List.mem_cons_self
      have htable : e.2.isTable = false := by simpa using (List.mem_filter.1 he).2
      simp [writeLines, htable]

theorem Inline.readBack (h : Inline depthLimit v) : ReadBack v := by
  intro rest
  obtain ⟨c, cs, hc, hbegins⟩ := h.readsBack.begins
  have hskip : skipSpace (writeValue v ++ '\n' :: rest) = writeValue v ++ '\n' :: rest := by
    rw [hc]
    simp [skipSpace, hbegins.1]
  rw [hskip]
  exact h.readsBack.value_eq ⟨'\n', rest, rfl, .inl rfl⟩

theorem writes_ownBlock (hlines : ∀ e ∈ es, e.2.isTable = false → Inline depthLimit e.2)
    (hlimit : path.length ≤ partLimit) : Writes (ownBlock path es) (ownStatements path es) := by
  have hwrites : Writes (writeLines es) ((linesOf es).map fun e => .line [e.1] e.2) := by
    rw [← writeLines_linesOf]
    apply Writes.lines
    intro e he
    obtain ⟨hmem, htable⟩ := List.mem_filter.1 he
    have htable : e.2.isTable = false := by simpa using htable
    exact ⟨htable, (hlines e hmem htable).readBack⟩
  unfold ownBlock ownStatements
  cases hhidden : hidesHeader path es with
  | true => exact hwrites
  | false =>
      cases path with
      | nil => cases hhidden
      | cons p ps => exact (Writes.header (Nat.lt_of_succ_le hlimit)).append hwrites

theorem blocks_table (path : List String) (es : List (String × Value)) :
    blocks path (.table es) =
      (if (ownBlock path es).isEmpty then [] else [ownBlock path es]) ++ blocksBelow path es := by
  have hhidden : (path.isEmpty || ((writeLines es).isEmpty && es.any (·.2.isTable))) =
      hidesHeader path es := by
    rw [isEmpty_writeLines]
    rfl
  unfold blocks ownBlock
  simp only [hhidden]
  by_cases h : hidesHeader path es = true
  · simp only [h, if_true, List.nil_append]
  · simp only [h, if_false, Bool.false_eq_true]

theorem writesBlocks_below (h : ∀ n sub, (n, Value.table sub) ∈ es →
      WritesBlocks (blocks (path ++ [n]) (.table sub))
        (tableStatements (path ++ [n]) (.table sub))) :
    WritesBlocks (blocksBelow path es) (statementsBelow path es) := by
  induction es with
  | nil => exact .nil
  | cons e es ih =>
      obtain ⟨n, v⟩ := e
      have hes := ih fun n sub hmem => h n sub (List.mem_cons_of_mem _ hmem)
      rw [blocksBelow, statementsBelow]
      cases v with
      | table sub => exact (h n sub List.mem_cons_self).append hes
      | _ => exact hes

/-- **The blocks of a table are read as its statements.** -/
theorem Regular.writesBlocks (h : Regular depth es) (path : List String)
    (hlimit : path.length + depth ≤ partLimit + 1) :
    WritesBlocks (blocks path (.table es)) (tableStatements path (.table es)) := by
  induction h generalizing path with
  | intro depth es names lines tables ih =>
      have hown : Writes (ownBlock path es) (ownStatements path es) :=
        writes_ownBlock lines (by omega)
      have hbelow : WritesBlocks (blocksBelow path es) (statementsBelow path es) := by
        apply writesBlocks_below
        intro n sub hmem
        apply ih n sub hmem
        rw [List.length_append, List.length_singleton]
        omega
      rw [blocks_table, tableStatements]
      split
      next hempty =>
        -- A block with nothing in it is left out, and has no statements.
        rw [List.isEmpty_iff.1 hempty] at hown
        rw [List.length_eq_zero_iff.1 (Nat.le_zero.1 hown.length_le)]
        exact hbelow
      next => exact .cons hown hbelow

/-! ## A table under construction -/

/-- A table under construction, seen from its last one: the entries before that, its name, and how
it came to be. -/
structure Frame where
  before : Entries
  key : String
  origin : Origin

variable {frames : List Frame} {base drafts : Entries} {origin : Origin}

/-- Frames around entries. -/
def fill : List Frame → Entries → Entries
  | [], es => es
  | f :: frames, es => f.before ++ [(f.key, .table f.origin (fill frames es))]

/-- The names that lead through frames. -/
def keys (frames : List Frame) : List String := frames.map (·.key)

/-- Each table stands under a name of its own. -/
def Apart (frames : List Frame) : Prop := ∀ f ∈ frames, f.before.lookup f.key = none

theorem keys_concat (frames : List Frame) (f : Frame) :
    keys (frames ++ [f]) = keys frames ++ [f.key] :=
  List.map_append

theorem fill_concat (frames : List Frame) (f : Frame) (es : Entries) :
    fill (frames ++ [f]) es = fill frames (f.before ++ [(f.key, .table f.origin es)]) := by
  induction frames with
  | nil => rfl
  | cons g frames ih => rw [List.cons_append, fill, fill, ih]

theorem Apart.concat (h : Apart frames) (hbase : base.lookup key = none) (origin : Origin) :
    Apart (frames ++ [⟨base, key, origin⟩]) :=
  List.forall_mem_append.2 ⟨h, List.forall_mem_singleton.2 hbase⟩

/-- A line is added to the table that its header opened. -/
theorem within_fill (h : Apart frames) (f : Entries → Option Entries) (es : Entries) :
    Entries.within f (keys frames) (fill frames es) = (f es).map (fill frames) := by
  induction frames with
  | nil => exact Option.map_id'.symm
  | cons g frames ih =>
      obtain ⟨hg, hframes⟩ := List.forall_mem_cons.1 h
      show Entries.within f (g.key :: keys frames)
        (g.before ++ [(g.key, .table g.origin (fill frames es))]) = _
      rw [Entries.within_last f hg, ih hframes, Option.map_map]
      rfl

/-- A header works behind the names that lead to the last table. -/
theorem openTable_fill (h : Apart frames) (hpath : path ≠ []) (es : Entries) :
    Entries.openTable false (keys frames ++ path) (fill frames es) =
      (es.openTable false path).map (fill frames) := by
  induction frames with
  | nil => exact Option.map_id'.symm
  | cons g frames ih =>
      obtain ⟨hg, hframes⟩ := List.forall_mem_cons.1 h
      show Entries.openTable false (g.key :: (keys frames ++ path))
        (g.before ++ [(g.key, .table g.origin (fill frames es))]) = _
      rw [Entries.openTable_through_last (by simp [hpath]) hg, ih hframes, Option.map_map]
      rfl

/-- For a header that passes through it, a table that is missing is one with nothing in it. -/
theorem openTable_passing (hbase : base.lookup key = none) (hpath : path ≠ []) :
    base.openTable false (key :: path) =
      Entries.openTable false (key :: path) (base ++ [(key, .table .passing [])]) := by
  rw [Entries.openTable_through_new hpath hbase, Entries.openTable_through_last hpath hbase]

/-! ## Building -/

theorem lookup_eq_none {α : Type} {base : List (String × α)} (h : key ∉ base.map (·.1)) :
    base.lookup key = none := by
  rw [List.lookup_eq_none_iff]
  intro e he
  have hne : key ≠ e.1 := fun heq => h (heq ▸ List.mem_map_of_mem he)
  simpa using hne

theorem valuesOf_append (a b : Entries) :
    Draft.valuesOf (a ++ b) = Draft.valuesOf a ++ Draft.valuesOf b := by
  induction a with
  | nil => rfl
  | cons e a ih => rw [List.cons_append, Draft.valuesOf, Draft.valuesOf, ih, List.cons_append]

/-- A header opens its table behind the names that lead to the last one. -/
theorem extend_header (h : Apart frames) (hpath : path ≠ []) (last : List String) (es : Entries) :
    extend (last, fill frames es) (.header false (keys frames ++ path)) =
      (es.openTable false path).map fun es => (keys frames ++ path, fill frames es) := by
  rw [extend, openTable_fill h hpath, Option.map_map]
  rfl

/-- Lines are put one behind the other into the table that was opened. -/
theorem extend_lines (h : Apart frames) (base : Entries) {lines : List (String × Value)}
    (hnames : (lines.map (·.1)).Nodup) (hbase : ∀ e ∈ lines, e.1 ∉ base.map (·.1)) :
    (lines.map fun e => Statement.line [e.1] e.2).foldlM extend (keys frames, fill frames base) =
      some (keys frames, fill frames (base ++ lines.map fun e => (e.1, .value e.2))) := by
  induction lines generalizing base with
  | nil =>
      rw [List.map_nil, List.map_nil, List.append_nil]
      rfl
  | cons e lines ih =>
      obtain ⟨hfirst, hnames⟩ := List.nodup_cons.1 hnames
      obtain ⟨he, hlines⟩ := List.forall_mem_cons.1 hbase
      have hextend : extend (keys frames, fill frames base) (.line [e.1] e.2) =
          some (keys frames, fill frames (base ++ [(e.1, .value e.2)])) := by
        rw [extend, within_fill h, Entries.assign_new (lookup_eq_none he)]
        rfl
      have hrest : ∀ f ∈ lines, f.1 ∉ (base ++ [(e.1, Draft.value e.2)]).map (·.1) := by
        intro f hf hmem
        rw [List.map_append, List.mem_append] at hmem
        rcases hmem with hmem | hmem
        · exact hlines f hf hmem
        · exact hfirst (List.mem_singleton.1 hmem ▸ List.mem_map_of_mem hf)
      rw [List.map_cons, List.foldlM_cons, hextend, Option.bind_eq_bind, Option.bind_some,
        ih _ hnames hrest, List.append_assoc]
      rfl

/-- The statements of a table put it behind whatever entries, in the hole of any frames. -/
def Builds (n : String) (sub : List (String × Value)) : Prop :=
  ∀ frames base last, Apart frames → n ∉ base.map (·.1) → ∃ last' origin drafts,
    (tableStatements (keys frames ++ [n]) (.table sub)).foldlM extend (last, fill frames base) =
      some (last', fill frames (base ++ [(n, .table origin drafts)])) ∧
    Draft.valuesOf drafts = settledEntries sub

/-- The tables among entries are put one behind the other. -/
theorem extend_below (h : Apart frames) (hnames : (es.map (·.1)).Nodup)
    (htables : ∀ n sub, (n, Value.table sub) ∈ es → Builds n sub ∧ n ∉ base.map (·.1))
    (last : List String) : ∃ last' drafts,
      (statementsBelow (keys frames) es).foldlM extend (last, fill frames base) =
        some (last', fill frames (base ++ drafts)) ∧
      Draft.valuesOf drafts = settledTables es := by
  induction es generalizing base last with
  | nil => exact ⟨last, [], by rw [List.append_nil]; rfl, rfl⟩
  | cons e es ih =>
      obtain ⟨n, v⟩ := e
      obtain ⟨hn, hdistinct⟩ := List.nodup_cons.1 hnames
      cases v with
      | table sub =>
          obtain ⟨hbuilds, hnew⟩ := htables n sub List.mem_cons_self
          obtain ⟨last₁, origin, drafts₁, hfirst, hvalues₁⟩ := hbuilds frames base last h hnew
          have hrest : ∀ m sub', (m, Value.table sub') ∈ es →
              Builds m sub' ∧ m ∉ (base ++ [(n, Draft.table origin drafts₁)]).map (·.1) := by
            intro m sub' hm
            obtain ⟨hbuilds, hnew⟩ := htables m sub' (List.mem_cons_of_mem _ hm)
            refine ⟨hbuilds, fun hmem => ?_⟩
            rw [List.map_append, List.mem_append] at hmem
            rcases hmem with hmem | hmem
            · exact hnew hmem
            · obtain rfl : m = n := List.mem_singleton.1 hmem
              exact hn (List.mem_map.2 ⟨_, hm, rfl⟩)
          obtain ⟨last₂, drafts₂, hsecond, hvalues₂⟩ := ih hdistinct hrest last₁
          refine ⟨last₂, (n, .table origin drafts₁) :: drafts₂, ?_, ?_⟩
          · rw [statementsBelow, List.foldlM_append, hfirst, Option.bind_eq_bind, Option.bind_some,
              hsecond, List.append_assoc]
            rfl
          · rw [Draft.valuesOf, hvalues₂]
            simp only [Draft.toValue, hvalues₁, settledTables, Value.isTable, if_true,
              Value.settled_table]
      | _ =>
          exact ih hdistinct (fun m sub' hm => htables m sub' (List.mem_cons_of_mem _ hm)) last

/-- The tables below begin with a header that leads further. -/
theorem exists_header_below (path : List String) (hany : es.any (·.2.isTable) = true)
    (htables : ∀ n sub, (n, Value.table sub) ∈ es → ∀ path, path ≠ [] →
      ∃ q more, tableStatements path (.table sub) = .header false (path ++ q) :: more) :
    ∃ q more, q ≠ [] ∧ statementsBelow path es = .header false (path ++ q) :: more := by
  induction es with
  | nil => cases hany
  | cons e es ih =>
      obtain ⟨n, v⟩ := e
      cases v with
      | table sub =>
          obtain ⟨q, more, hstatements⟩ :=
            htables n sub List.mem_cons_self (path ++ [n]) (by simp)
          refine ⟨n :: q, more ++ statementsBelow path es, List.cons_ne_nil n q, ?_⟩
          rw [statementsBelow, hstatements, List.append_assoc]
          rfl
      | _ => exact ih hany fun n sub hmem => htables n sub (List.mem_cons_of_mem _ hmem)

theorem hidesHeader_iff (hpath : path ≠ []) : hidesHeader path es = true ↔
    linesOf es = [] ∧ es.any (·.2.isTable) = true := by
  simp [hidesHeader, hpath]

/-- The statements of a table begin with a header that leads to it or further. -/
theorem Regular.exists_header (h : Regular depth es) (hpath : path ≠ []) :
    ∃ q more, tableStatements path (.table es) = .header false (path ++ q) :: more := by
  induction h generalizing path with
  | intro depth es names lines tables ih =>
      rw [tableStatements, ownStatements]
      cases hhidden : hidesHeader path es with
      | true =>
          obtain ⟨hlines, hany⟩ := (hidesHeader_iff hpath).1 hhidden
          obtain ⟨q, more, -, hbelow⟩ := exists_header_below path hany
            fun n sub hmem path hpath => ih n sub hmem hpath
          exact ⟨q, more, by rw [hlines, hbelow]; rfl⟩
      | false => exact ⟨[], _, by rw [List.append_nil]; rfl⟩

/-- The lines of a table under construction. -/
def draftLines (es : List (String × Value)) : Entries :=
  (linesOf es).map fun e => (e.1, .value e.2)

theorem names_draftLines (es : List (String × Value)) :
    (draftLines es).map (·.1) = (linesOf es).map (·.1) :=
  List.map_map

theorem nodup_linesOf (hnames : (es.map (·.1)).Nodup) : ((linesOf es).map (·.1)).Nodup :=
  hnames.sublist (List.filter_sublist.map _)

theorem valuesOf_lines (lines : List (String × Value)) :
    Draft.valuesOf (lines.map fun e => (e.1, .value e.2)) = lines := by
  induction lines with
  | nil => rfl
  | cons e lines ih =>
      rw [List.map_cons, Draft.valuesOf, ih]
      rfl

/-- A name of a table is not the name of a line as well. -/
theorem not_mem_draftLines (hnames : (es.map (·.1)).Nodup) {sub : List (String × Value)}
    (h : (key, Value.table sub) ∈ es) : key ∉ (draftLines es).map (·.1) := by
  rw [names_draftLines]
  intro hmem
  obtain ⟨e, he, heq⟩ := List.mem_map.1 hmem
  obtain ⟨he, htable⟩ := List.mem_filter.1 he
  obtain rfl : e = (key, .table sub) := List.inj_on_of_nodup_map hnames he h heq
  cases htable

/-- Behind the lines of a table its tables are built. -/
theorem extend_below_lines (h : Apart frames) (hnames : (es.map (·.1)).Nodup)
    (htables : ∀ n sub, (n, Value.table sub) ∈ es → Builds n sub) (last : List String) :
    ∃ last' drafts,
      (statementsBelow (keys frames) es).foldlM extend (last, fill frames (draftLines es)) =
        some (last', fill frames drafts) ∧
      Draft.valuesOf drafts = settledEntries es := by
  obtain ⟨last', drafts, hbelow, hvalues⟩ := extend_below h hnames
    (fun n sub hmem => ⟨htables n sub hmem, not_mem_draftLines hnames hmem⟩) last
  refine ⟨last', _, hbelow, ?_⟩
  rw [valuesOf_append, draftLines, valuesOf_lines, hvalues]
  rfl

/-- A header of its own puts a table there, and then come its lines. -/
theorem extend_headed (h : Apart frames) (hbase : base.lookup key = none)
    (hnames : (es.map (·.1)).Nodup) (hhidden : hidesHeader (keys frames ++ [key]) es = false)
    (last : List String) :
    (tableStatements (keys frames ++ [key]) (.table es)).foldlM extend (last, fill frames base) =
      (statementsBelow (keys frames ++ [key]) es).foldlM extend
        (keys frames ++ [key], fill frames (base ++ [(key, .table .header (draftLines es))])) := by
  have hown : ownStatements (keys frames ++ [key]) es =
      .header false (keys frames ++ [key]) :: (linesOf es).map fun e => .line [e.1] e.2 := by
    rw [ownStatements, hhidden]
    rfl
  have hheader : extend (last, fill frames base) (.header false (keys frames ++ [key])) =
      some (keys frames ++ [key], fill frames (base ++ [(key, .table .header [])])) := by
    rw [extend_header h (List.cons_ne_nil key []), Entries.openTable_new hbase]
    rfl
  have hlines := extend_lines (h.concat hbase .header) [] (nodup_linesOf hnames)
    (fun e _ => List.not_mem_nil)
  rw [keys_concat, fill_concat, fill_concat, List.nil_append] at hlines
  rw [tableStatements, hown, List.cons_append, List.foldlM_cons, hheader, Option.bind_eq_bind,
    Option.bind_some, List.foldlM_append, hlines]
  rfl

/-- A table without a header of its own is put there by the first header below, which passes
through it as if it was there already. -/
theorem extend_hidden (h : Apart frames) (hbase : base.lookup key = none)
    (htables : ∀ n sub, (n, Value.table sub) ∈ es → ∀ path, path ≠ [] →
      ∃ q more, tableStatements path (.table sub) = .header false (path ++ q) :: more)
    (hhidden : hidesHeader (keys frames ++ [key]) es = true) (last : List String) :
    (tableStatements (keys frames ++ [key]) (.table es)).foldlM extend (last, fill frames base) =
      (statementsBelow (keys frames ++ [key]) es).foldlM extend
        (last, fill frames (base ++ [(key, .table .passing (draftLines es))])) := by
  obtain ⟨hlines, hany⟩ := (hidesHeader_iff (by simp)).1 hhidden
  obtain ⟨q, more, hq, hstatements⟩ := exists_header_below (keys frames ++ [key]) hany htables
  have hown : ownStatements (keys frames ++ [key]) es = [] := by
    rw [ownStatements, hhidden, hlines]
    rfl
  have hdrafts : draftLines es = [] := by
    rw [draftLines, hlines, List.map_nil]
  have hheader (es : Entries) :
      extend (last, fill frames es) (.header false (keys frames ++ ([key] ++ q))) =
        (es.openTable false (key :: q)).map fun es =>
          (keys frames ++ ([key] ++ q), fill frames es) :=
    extend_header h (List.cons_ne_nil key q) last es
  rw [List.append_assoc] at hstatements
  rw [tableStatements, hown, List.nil_append, hstatements, hdrafts, List.foldlM_cons,
    List.foldlM_cons, hheader, hheader, openTable_passing hbase hq]

/-- **The statements of a table build it**, wherever it stands. -/
theorem Regular.builds (h : Regular depth es) (n : String) : Builds n es := by
  induction h generalizing n with
  | intro depth es names lines tables ih =>
      intro frames base last hapart hnew
      have hbase : base.lookup n = none := lookup_eq_none hnew
      have hbelow (origin : Origin) (last : List String) : ∃ last' drafts,
          (statementsBelow (keys frames ++ [n]) es).foldlM extend
            (last, fill frames (base ++ [(n, .table origin (draftLines es))])) =
            some (last', fill frames (base ++ [(n, .table origin drafts)])) ∧
          Draft.valuesOf drafts = settledEntries es := by
        have hextend := extend_below_lines (hapart.concat hbase origin) names
          (fun m sub hm => ih m sub hm m) last
        simpa only [keys_concat, fill_concat] using hextend
      cases hhidden : hidesHeader (keys frames ++ [n]) es with
      | true =>
          obtain ⟨last', drafts, hbelow, hvalues⟩ := hbelow .passing last
          have hpassing := extend_hidden hapart hbase
            (fun m sub hm path hpath => (tables m sub hm).exists_header hpath) hhidden last
          exact ⟨last', .passing, drafts, hpassing.trans hbelow, hvalues⟩
      | false =>
          obtain ⟨last', drafts, hbelow, hvalues⟩ := hbelow .header (keys frames ++ [n])
          have hheaded := extend_headed hapart hbase names hhidden last
          exact ⟨last', .header, drafts, hheaded.trans hbelow, hvalues⟩

/-! ## Documents -/

/-- No statement begins with the mark that may stand before a document. -/
theorem Holds.head?_ne {cs : List Char} {ss : List Statement} (h : Holds cs ss) :
    cs.head? ≠ some '\uFEFF' := by
  intro hhead
  obtain ⟨cs, rfl⟩ : ∃ ds, cs = '\uFEFF' :: ds := by
    cases cs with
    | nil => cases hhead
    | cons c cs => exact ⟨cs, by rw [Option.some.inj hhead]⟩
  have hgap : skipGap false ('\uFEFF' :: cs) = some ('\uFEFF' :: cs) := by
    simp [skipGap, isSpace]
  have hbare : isBare '\uFEFF' = false := by decide
  have hpart : part ('\uFEFF' :: cs) = none := by simp [part, hbare]
  have hstatement : statement ('\uFEFF' :: cs) = none := by
    have hname : name ('\uFEFF' :: cs) = none := by
      rw [name_eq, List.length_cons, chain, hpart]
      rfl
    have hline : line (value depthLimit) ('\uFEFF' :: cs) = none := by
      rw [line, hname]
      rfl
    show (line (value depthLimit) ('\uFEFF' :: cs)).map
      (fun r => (Statement.line r.1.1 r.1.2, r.2)) = none
    rw [hline]
    rfl
  cases h with
  | done hdone => cases hgap.symm.trans hdone
  | next hnext hs _ _ =>
      obtain ⟨rfl, rfl⟩ := List.cons.inj (Option.some.inj (hgap.symm.trans hnext))
      cases hstatement.symm.trans hs

/-- **A table is read back from its document**, its lines first. -/
theorem Regular.read?_print (h : Regular depth es) (hlimit : depth ≤ partLimit + 1) :
    read? (print es) = some (settledEntries es) := by
  have hwrites : Writes (['\n'].intercalate (blocks [] (.table es)))
      (tableStatements [] (.table es)) :=
    (h.writesBlocks [] (by rwa [List.length_nil, Nat.zero_add])).writes
  have hmark : (['\n'].intercalate (blocks [] (.table es))).head? ≠ some '\uFEFF' := by
    have hnil : Holds [] [] := .done rfl
    have hholds := hwrites.holds hnil
    rw [List.append_nil] at hholds
    exact hholds.head?_ne
  rw [print, hwrites.read?_eq hmark]
  cases h with
  | intro depth _ names lines tables =>
      have hapart : Apart [] := fun f hf => by cases hf
      have hlines := extend_lines hapart [] (nodup_linesOf names) (fun e _ => List.not_mem_nil)
      obtain ⟨last, drafts, hbelow, hvalues⟩ := extend_below_lines hapart names
        (fun n sub hmem => (tables n sub hmem).builds n) []
      have hfold : (tableStatements [] (.table es)).foldlM extend ([], []) =
          some (last, drafts) := by
        show ((linesOf es).map (fun e => Statement.line [e.1] e.2) ++
          statementsBelow [] es).foldlM extend ([], []) = _
        rw [List.foldlM_append]
        exact (congrArg (· >>= _) hlines).trans hbelow
      rw [hfold, Option.map_some, hvalues]

end ConnectionSecurity.Toml
