import ConnectionSecurity.Proofs.Toml.Tree
import ConnectionSecurity.Toml.Record

/-!
# Records are read as they are written

A document gives a table back with its lines first, so a record is not read from the value that was
written but from that value settled (`Codes`). A field is found by its name wherever it stands, so a
record is read back if each of its fields is (`Codes.ofFields`). A field with a default has two
cases (`CodesField`), and the one where it is left out says that what is not written is just what
the reader takes for it.
-/

namespace ConnectionSecurity.Toml

variable {α β : Type} {depth i : Nat} {name : String} {v : Value} {field : Option Value}
  {fields : List (String × Option Value)} {es : List (String × Value)} {r : Fields}
  {read : Value → Option α} {default a : α} {k : α → Option β} {b : β}

/-! ## Looking up -/

/-- The names of lines are names of the table. -/
theorem lookup_linesOf_eq_none (h : name ∉ es.map (·.1)) : (linesOf es).lookup name = none :=
  lookup_eq_none fun hmem => h ((List.filter_sublist.map _).subset hmem)

/-- A name gives the same value behind the lines as it gave among them. -/
theorem lookup_settledEntries (hnames : (es.map (·.1)).Nodup) :
    (settledEntries es).lookup name = (es.lookup name).map Value.settled := by
  induction es with
  | nil => rfl
  | cons e es ih =>
      obtain ⟨n, v⟩ := e
      obtain ⟨hn, hnames⟩ := List.nodup_cons.1 hnames
      have ih := ih hnames
      rw [settledEntries, List.lookup_append] at ih ⊢
      cases htable : v.isTable with
      | false =>
          have hlines : linesOf ((n, v) :: es) = (n, v) :: linesOf es := by simp [linesOf, htable]
          have htables : settledTables ((n, v) :: es) = settledTables es := by
            simp [settledTables, htable]
          rw [hlines, htables, List.lookup_cons, List.lookup_cons]
          split
          · rw [Option.map_some, v.settled_of_not_isTable htable]
            rfl
          · exact ih
      | true =>
          have hlines : linesOf ((n, v) :: es) = linesOf es := by simp [linesOf, htable]
          have htables : settledTables ((n, v) :: es) = (n, v.settled) :: settledTables es := by
            simp [settledTables, htable]
          rw [hlines, htables, List.lookup_cons, List.lookup_cons]
          split
          next heq =>
            have hnone : (linesOf es).lookup name = none :=
              lookup_linesOf_eq_none (beq_iff_eq.1 heq ▸ hn)
            rw [hnone]
            rfl
          next => exact ih

/-- The fields of a record that are set. -/
def setFields (fields : List (String × Option Value)) : List (String × Value) :=
  fields.filterMap fun (name, v) => v.map fun v => (name, v)

theorem mem_setFields : (name, v) ∈ setFields fields ↔ (name, some v) ∈ fields := by
  simp [setFields]

theorem names_setFields_sublist (fields : List (String × Option Value)) :
    ((setFields fields).map (·.1)).Sublist (fields.map (·.1)) := by
  induction fields with
  | nil => exact .slnil
  | cons f fields ih =>
      obtain ⟨n, v⟩ := f
      cases v with
      | none => exact ih.cons n
      | some v => exact ih.cons_cons n

/-- A field is found in its place, or not at all if it is not set. -/
theorem lookup_setFields (hnames : (fields.map (·.1)).Nodup) (h : (name, field) ∈ fields) :
    (setFields fields).lookup name = field := by
  cases hlookup : (setFields fields).lookup name with
  | none =>
      cases field with
      | none => rfl
      | some v =>
          rw [List.lookup_eq_none_iff] at hlookup
          exact absurd (hlookup _ (mem_setFields.2 h)) (by simp)
  | some w =>
      obtain ⟨before, after, hsplit, -⟩ := List.lookup_eq_some_iff.1 hlookup
      have hw : (name, some w) ∈ fields := by
        rw [← mem_setFields, hsplit]
        exact List.mem_append_right _ List.mem_cons_self
      exact congrArg (·.2) (List.inj_on_of_nodup_map hnames hw h rfl)

/-! ## Printing a record -/

/-- A value that can stand in a table with at most so many levels of tables below. -/
structure Printable (depth : Nat) (v : Value) : Prop where
  inline : v.isTable = false → Inline depthLimit v
  table : ∀ es, v = .table es → Regular depth es

theorem Printable.of_inline (h : Inline depthLimit v) : Printable depth v := by
  refine ⟨fun _ => h, ?_⟩
  rintro es rfl
  cases h

theorem Printable.of_regular (h : Regular depth es) : Printable depth (.table es) := by
  refine ⟨fun htable => ?_, ?_⟩
  · cases htable
  · rintro _ ⟨⟩
    exact h

/-- A field that can be printed, if it is set. -/
def PrintableField (depth : Nat) (field : Option Value) : Prop := ∀ v ∈ field, Printable depth v

@[simp] theorem printableField_none : PrintableField depth none := fun v hv => by cases hv

@[simp] theorem printableField_some : PrintableField depth (some v) ↔ Printable depth v := by
  simp [PrintableField]

/-- The fields of a record make a table that can be printed. -/
theorem regular_setFields (hnames : (fields.map (·.1)).Nodup)
    (h : ∀ f ∈ fields, PrintableField depth f.2) : Regular (depth + 1) (setFields fields) := by
  refine .intro depth _ (hnames.sublist (names_setFields_sublist fields)) ?_ ?_
  · rintro ⟨n, v⟩ hmem htable
    exact (h _ (mem_setFields.1 hmem) v rfl).inline htable
  · intro n es hmem
    exact (h _ (mem_setFields.1 hmem) _ rfl).table es rfl

/-! ## Reading a record -/

/-- What is known of the fields of a record that was written: each is given by its name. -/
def Gives (r : Fields) (fields : List (String × Option Value)) : Prop :=
  ∀ {i name field}, fields[i]? = some (name, field) → r.get? i name = field.map Value.settled

theorem gives_named (hnames : (fields.map (·.1)).Nodup) :
    Gives (.named (settledEntries (setFields fields))) fields := by
  intro i name field h
  have hset : ((setFields fields).map (·.1)).Nodup :=
    hnames.sublist (names_setFields_sublist fields)
  show (settledEntries (setFields fields)).lookup name = _
  rw [lookup_settledEntries hset, lookup_setFields hnames (List.mem_of_getElem? h)]

/-- A field is read as `a`. If it is left out, `a` is what a missing one is taken for. -/
def ReadsField (read : Value → Option α) (default : α) : Option Value → α → Prop
  | none, a => a = default
  | some v, a => read v.settled = some a

theorem required_bind (hget : r.get? i name = (some v).map Value.settled)
    (hread : read v.settled = some a) (hk : k a = some b) :
    (r.required i name read >>= k) = some b := by
  rw [Fields.required, hget, Option.map_some, Option.bind_some, hread]
  exact hk

theorem withDefault_bind (hget : r.get? i name = field.map Value.settled)
    (hread : ReadsField read default field a) (hk : k a = some b) :
    (r.withDefault i name read default >>= k) = some b := by
  rw [Fields.withDefault, hget]
  cases field with
  | none =>
      obtain rfl : a = default := hread
      exact hk
  | some v =>
      have hread : read v.settled = some a := hread
      simp only [Option.map_some, hread]
      exact hk

theorem optional_bind {a : Option α} {k : Option α → Option β}
    (hget : r.get? i name = field.map Value.settled)
    (hread : ReadsField (fun v => (read v).map some) none field a) (hk : k a = some b) :
    (r.optional i name read >>= k) = some b :=
  withDefault_bind hget hread hk

/-- A value stands for `a`: it can be printed, and what a document gives back for it is read
as `a`. -/
structure Codes (depth : Nat) (read : Value → Option α) (v : Value) (a : α) : Prop where
  printable : Printable depth v
  read_eq : read v.settled = some a

/-- **A record is read back from its fields.** -/
theorem Codes.ofFields {k : Fields → Option α} (hnames : (fields.map (·.1)).Nodup)
    (hprintable : ∀ f ∈ fields, PrintableField depth f.2)
    (hread : ∀ r, Gives r fields → k r = some a) :
    Codes (depth + 1) (fun v => Fields.of? v >>= k) (.ofFields fields) a where
  printable := .of_regular (regular_setFields hnames hprintable)
  read_eq := hread _ (gives_named hnames)

end ConnectionSecurity.Toml
