import ConnectionSecurity.Proofs.Toml.Name

/-!
# Documents are read as they are written

Reading a document goes in two steps, and so does this file. First a text is cut into statements:
what is written for a header or for a line is read as this one statement wherever it stands
(`Writes`), and texts with this property can be put one behind the other. Then the statements build
a table: a name that is new to a table goes to its end, so as long as names are new the last table
on each level is the one that grows.
-/

namespace ConnectionSecurity.Toml

variable {cs ds rest : List Char} {ss ts : List Statement}

/-! ## Statements -/

/-- A text holds statements, one to a line. -/
inductive Holds : List Char → List Statement → Prop where
  | done {cs : List Char} (hgap : skipGap false cs = some []) : Holds cs []
  | next {cs cs' cs'' rest : List Char} {c : Char} {s : Statement} {ss : List Statement}
      (hgap : skipGap false cs = some (c :: cs')) (hs : statement (c :: cs') = some (s, cs''))
      (hend : skipLine false cs'' = some rest) (h : Holds rest ss) : Holds cs (s :: ss)

theorem Holds.statements_eq (h : Holds cs ss) {fuel : Nat} (hfuel : ss.length < fuel) :
    statements fuel cs = some ss := by
  induction h generalizing fuel with
  | done hgap =>
      obtain ⟨fuel, rfl⟩ : ∃ n, fuel = n + 1 := ⟨fuel - 1, by omega⟩
      simp only [statements, hgap]
  | next hgap hs hend _ ih =>
      obtain ⟨fuel, rfl⟩ : ∃ n, fuel = n + 1 := ⟨fuel - 1, by omega⟩
      simp only [statements, hgap, hs, hend]
      rw [ih (by simpa using hfuel)]
      rfl

/-- A text is read as some statements wherever it stands. -/
structure Writes (cs : List Char) (ss : List Statement) : Prop where
  holds : ∀ {rest ts}, Holds rest ts → Holds (cs ++ rest) (ss ++ ts)
  /-- No statement is written with nothing. -/
  length_le : ss.length ≤ cs.length

namespace Writes

theorem nil : Writes [] [] := ⟨id, Nat.le_refl 0⟩

theorem append (hc : Writes cs ss) (hd : Writes ds ts) : Writes (cs ++ ds) (ss ++ ts) where
  holds h := by
    rw [List.append_assoc, List.append_assoc]
    exact hc.holds (hd.holds h)
  length_le := by
    have hclength := hc.length_le
    have hdlength := hd.length_le
    rw [List.length_append, List.length_append]
    omega

theorem skipGap_lineBreak (cs : List Char) : skipGap false ('\n' :: cs) = skipGap false cs := by
  simp [skipGap]

theorem skipLine_lineBreak (cs : List Char) : skipLine false ('\n' :: cs) = some cs := by
  simp [skipLine]

/-- An empty line is no statement. -/
theorem lineBreak : Writes ['\n'] [] where
  holds h := by
    cases h with
    | done hgap => exact .done ((skipGap_lineBreak _).trans hgap)
    | next hgap hs hend h => exact .next ((skipGap_lineBreak _).trans hgap) hs hend h
  length_le := by simp

/-- Blocks with empty lines between them. -/
theorem intercalate {α : Type} {text : α → List Char} {stmts : α → List Statement} (xs : List α)
    (h : ∀ x ∈ xs, Writes (text x) (stmts x)) :
    Writes (['\n'].intercalate (xs.map text)) (xs.flatMap stmts) := by
  induction xs with
  | nil => exact nil
  | cons x xs ih =>
      obtain ⟨hx, hxs⟩ := List.forall_mem_cons.1 h
      have hrest := ih hxs
      cases xs with
      | nil => simpa [List.intercalate] using hx
      | cons y ys => simpa [List.intercalate] using hx.append (lineBreak.append hrest)

end Writes

/-! ## Headers and lines -/

theorem statement_header {p : String} {ps : List String} (hlimit : ps.length < partLimit)
    (rest : List Char) : statement ('[' :: (writeName (p :: ps) ++ ']' :: rest)) =
      some (.header false (p :: ps), rest) := by
  have hname : name (skipSpace (writeName (p :: ps) ++ ']' :: rest)) =
      some (p :: ps, ']' :: rest) := by
    have hbare : ∀ c, (']' :: rest).head? = some c → isBare c = false := by
      intro c hc
      cases hc
      decide
    rw [skipSpace_writeName, name_writeName hlimit hbare rfl]
    rfl
  obtain ⟨c, cs, hc, hbegins⟩ := exists_writeName p ps
  have hne : c ≠ '[' := by
    rintro rfl
    exact absurd hbegins (by unfold BeginsName; decide)
  unfold statement
  split
  next heq =>
    -- Two brackets would be the header of an array.
    rw [hc] at heq
    cases heq
    exact absurd rfl hne
  next heq =>
    cases heq
    rw [hname]
    rfl
  next hsingle => exact absurd rfl (hsingle _)

theorem BeginsName.skipGap {c : Char} (h : BeginsName c) :
    skipGap false (c :: cs) = some (c :: cs) := by
  have hne : c ≠ '\n' ∧ c ≠ '\r' ∧ c ≠ '#' := by
    refine ⟨?_, ?_, ?_⟩ <;> rintro rfl <;> exact absurd h (by unfold BeginsName; decide)
  simp [Toml.skipGap, hne, h.not_isSpace]

/-- A value is read back from the end of a line. -/
def ReadBack (v : Value) : Prop :=
  ∀ rest, value depthLimit (skipSpace (writeValue v ++ '\n' :: rest)) = some (v, '\n' :: rest)

theorem readBack_boolean (b : Bool) : ReadBack (.boolean b) := by
  intro rest
  cases b with
  | true =>
      simp [writeValue, skipSpace, isSpace, depthLimit, value, scalar, scalar?, isToken, date?]
  | false =>
      simp [writeValue, skipSpace, isSpace, depthLimit, value, scalar, scalar?, isToken, date?]

theorem statement_line {v : Value} (hv : ReadBack v) (p : String) (rest : List Char) :
    statement (writePart p ++ ([' ', '=', ' '] ++ (writeValue v ++ '\n' :: rest))) =
      some (.line [p] v, '\n' :: rest) := by
  obtain ⟨c, cs, hc, hbegins⟩ := exists_writePart p
  have hne : c ≠ '[' := by
    rintro rfl
    exact absurd hbegins (by unfold BeginsName; decide)
  have hname : name (writePart p ++ ([' ', '=', ' '] ++ (writeValue v ++ '\n' :: rest))) =
      some ([p], '=' :: ' ' :: (writeValue v ++ '\n' :: rest)) := by
    rw [← writeName_singleton, name_writeName (by decide) (by simp; decide) rfl]
    rfl
  unfold statement
  split
  next heq =>
    rw [hc, List.cons_append] at heq
    exact absurd (List.cons.inj heq).1 hne
  next heq =>
    rw [hc, List.cons_append] at heq
    exact absurd (List.cons.inj heq).1 hne
  next =>
    rw [line, hname]
    show Option.map _ ((value depthLimit (skipSpace (writeValue v ++ '\n' :: rest))).bind _) = _
    rw [hv]
    rfl

/-- A document without the mark that may stand before it. -/
def unmarked : List Char → List Char
  | '\uFEFF' :: cs => cs
  | cs => cs

theorem read?_eq_bind (text : String) : read? text =
    (statements ((unmarked text.toList).length + 1) (unmarked text.toList)).bind fun lines =>
      (lines.foldlM extend ([], [])).bind fun built => some (Draft.valuesOf built.2) := rfl

namespace Writes

theorem header {p : String} {ps : List String} (hlimit : ps.length < partLimit) :
    Writes (writeHeader (p :: ps)) [.header false (p :: ps)] where
  holds {rest ts} h := by
    have htext : writeHeader (p :: ps) ++ rest =
        '[' :: (writeName (p :: ps) ++ ']' :: '\n' :: rest) := by
      simp [writeHeader]
    have hgap (cs : List Char) : skipGap false ('[' :: cs) = some ('[' :: cs) := by
      simp [skipGap, isSpace]
    rw [htext]
    exact .next (hgap _) (statement_header hlimit _) (skipLine_lineBreak rest) h
  length_le := by simp [writeHeader]

theorem line {v : Value} (hv : ReadBack v) (p : String) :
    Writes (writePart p ++ [' ', '=', ' '] ++ writeValue v ++ ['\n']) [.line [p] v] where
  holds {rest ts} h := by
    have htext : writePart p ++ [' ', '=', ' '] ++ writeValue v ++ ['\n'] ++ rest =
        writePart p ++ ([' ', '=', ' '] ++ (writeValue v ++ '\n' :: rest)) := by
      simp
    have hstatement := statement_line hv p rest
    obtain ⟨c, cs, hc, hbegins⟩ := exists_writePart p
    rw [htext]
    rw [hc] at hstatement ⊢
    exact .next hbegins.skipGap hstatement (skipLine_lineBreak rest) h
  length_le := by
    simp only [List.length_append, List.length_cons, List.length_nil]
    omega

/-- The lines of a table are the values in it that are no tables. -/
theorem lines {entries : List (String × Value)}
    (h : ∀ e ∈ entries, e.2.isTable = false ∧ ReadBack e.2) :
    Writes (writeLines entries) (entries.map fun e => .line [e.1] e.2) := by
  induction entries with
  | nil => exact nil
  | cons e es ih =>
      obtain ⟨⟨htable, hback⟩, hes⟩ := List.forall_mem_cons.1 h
      have hline := (line hback e.1).append (ih hes)
      simpa [writeLines, htable] using hline

/-- **A text is read as the statements it is made of.** -/
theorem read?_eq (h : Writes cs ss) (hmark : cs.head? ≠ some '\uFEFF') :
    read? (String.ofList cs) =
      (ss.foldlM extend ([], [])).map fun built => Draft.valuesOf built.2 := by
  have hunmarked : unmarked cs = cs := by
    unfold unmarked
    split
    next => exact absurd rfl hmark
    next => rfl
  have hholds : Holds cs ss := by
    have hnil : Holds [] [] := .done rfl
    have happend := h.holds hnil
    rwa [List.append_nil, List.append_nil] at happend
  have hstatements : statements (cs.length + 1) cs = some ss :=
    hholds.statements_eq (Nat.lt_succ_of_le h.length_le)
  rw [read?_eq_bind, String.toList_ofList, hunmarked, hstatements, Option.bind_some,
    Option.map_eq_bind]
  rfl

end Writes

/-! ## Building tables -/

namespace Entries

variable {es : Entries} {key : String} {path : List String} {d old : Draft} {origin : Origin}
  {sub : List (String × Draft)}

/-- A new name goes to the end. -/
theorem put_of_lookup_eq_none (h : es.lookup key = none) (d : Draft) :
    es.put key d = es ++ [(key, d)] := by
  induction es with
  | nil => rfl
  | cons e es ih =>
      obtain ⟨n, old⟩ := e
      by_cases hn : key = n
      · simp [hn] at h
      · rw [List.lookup_cons, beq_eq_false_iff_ne.2 hn] at h
        rw [put, if_neg (by simpa using Ne.symm hn), ih h, List.cons_append]

theorem lookup_append_self (h : es.lookup key = none) (d : Draft) :
    (es ++ [(key, d)]).lookup key = some d := by
  simp [List.lookup_append, h]

theorem put_append_self (h : es.lookup key = none) (old d : Draft) :
    Entries.put key d (es ++ [(key, old)]) = es ++ [(key, d)] := by
  induction es with
  | nil => simp [put]
  | cons e es ih =>
      obtain ⟨n, d'⟩ := e
      by_cases hn : key = n
      · simp [hn] at h
      · rw [List.lookup_cons, beq_eq_false_iff_ne.2 hn] at h
        rw [List.cons_append, put, if_neg (by simpa using Ne.symm hn), ih h, List.cons_append]

theorem openTable_new (h : es.lookup key = none) :
    es.openTable false [key] = some (es ++ [(key, .table .header [])]) := by
  simp [openTable, h, put_of_lookup_eq_none h]

/-- A header passes through a table that was not there. -/
theorem openTable_through_new (hpath : path ≠ []) (h : es.lookup key = none) :
    es.openTable false (key :: path) =
      (openTable false path []).map fun sub => es ++ [(key, .table .passing sub)] := by
  simp [openTable, hpath, h, put_of_lookup_eq_none h]

/-- A header passes through the last table. -/
theorem openTable_through_last (hpath : path ≠ []) (h : es.lookup key = none) :
    openTable false (key :: path) (es ++ [(key, .table origin sub)]) =
      (openTable false path sub).map fun sub => es ++ [(key, .table origin sub)] := by
  simp [openTable, hpath, lookup_append_self h, put_append_self h]

theorem within_last (f : Entries → Option Entries) (h : es.lookup key = none) :
    within f (key :: path) (es ++ [(key, .table origin sub)]) =
      (within f path sub).map fun sub => es ++ [(key, .table origin sub)] := by
  simp [within, lookup_append_self h, put_append_self h]

theorem assign_new (h : es.lookup key = none) (v : Value) :
    es.assign true v [key] = some (es ++ [(key, .value v)]) := by
  simp [assign, h, put_of_lookup_eq_none h]

end Entries

end ConnectionSecurity.Toml
