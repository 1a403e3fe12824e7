import ConnectionSecurity.Waiver.Table

/-!
# Decisions in a table

A decision about one phase of one connection changes that flag and nothing else.
-/

namespace ConnectionSecurity.Waiver

variable (t : Table) (uuid u : String) (phase : Phase) (waived : Bool)

@[simp] theorem Row.get_set (r : Row) (phase phase' : Phase) :
    (r.set phase waived).get phase' = if phase' = phase then waived else r.get phase' := by
  split
  next h => rw [h, Row.get_set_self]
  next h => exact Row.get_set_of_ne r waived h

namespace Table

@[simp] theorem row_put (r : Row) : (t.put uuid r).row u = if u = uuid then r else t.row u := by
  unfold row
  rw [row?_put]
  split <;> rfl

theorem row?_decide_of_ne {u uuid : String} (h : u ≠ uuid) :
    (t.decide uuid phase waived).row? u = t.row? u := by
  rw [Table.decide, row?_put, if_neg h]

/-- What a decision changes. -/
@[simp] theorem isWaived_decide (phase' : Phase) :
    (t.decide uuid phase waived).isWaived u phase' =
      if u = uuid ∧ phase' = phase then waived else t.isWaived u phase' := by
  unfold isWaived Table.decide
  rw [row_put]
  by_cases hu : u = uuid
  · subst hu
    simp
  · simp [hu]

end Table

end ConnectionSecurity.Waiver
