import ConnectionSecurity.Credential.Check
import ConnectionSecurity.Proofs.Except

/-!
# Demands in order

What it takes to be fit is a list of demands. A check is judged by such a list if it succeeds where
all of them are met, and else ends with the fault of the first one that is not (`Judged`). Checks
that are done one after the other are judged by their lists one after the other (`Judged.bind`), so
the list of a form is put together from those of its fields.
-/

namespace ConnectionSecurity

/-- Something that is asked for. -/
inductive Demand where
  /-- Something has to hold, or else this is the fault. -/
  | that (holds : Prop) (fault : Fault)
  /-- A file has to pass a judgement, which finds the fault. -/
  | passes (judgement : Except Fault Credential.Accepted)

namespace Demand

variable {d : Demand} {ds es : List Demand} {f g : Fault}

def Met : Demand → Prop
  | that holds _ => holds
  | passes judgement => ∃ file, judgement = .ok file

/-- The demand is not met, for this fault. -/
def Fails : Demand → Fault → Prop
  | that holds fault, f => ¬holds ∧ fault = f
  | passes judgement, f => judgement = .error f

theorem Fails.not_met (h : d.Fails f) : ¬d.Met := by
  cases d with
  | that holds fault => exact h.1
  | passes judgement =>
      rintro ⟨file, hfile⟩
      cases hfile.symm.trans h

theorem Fails.unique (hf : d.Fails f) (hg : d.Fails g) : f = g := by
  cases d with
  | that holds fault => exact hf.2.symm.trans hg.2
  | passes judgement => exact Except.error.inj (hf.symm.trans hg)

/-! ## The first fault -/

def AllMet (ds : List Demand) : Prop := ∀ d ∈ ds, d.Met

/-- All demands are met up to one that fails, and this is its fault. -/
def FirstFault (ds : List Demand) (f : Fault) : Prop :=
  ∃ before d after, ds = before ++ d :: after ∧ AllMet before ∧ d.Fails f

theorem allMet_nil : AllMet [] := nofun

theorem allMet_cons : AllMet (d :: ds) ↔ d.Met ∧ AllMet ds := List.forall_mem_cons

theorem allMet_append : AllMet (ds ++ es) ↔ AllMet ds ∧ AllMet es := List.forall_mem_append

theorem firstFault_cons : FirstFault (d :: ds) f ↔ d.Fails f ∨ d.Met ∧ FirstFault ds f := by
  constructor
  · rintro ⟨before, e, after, heq, hmet, hfails⟩
    cases before with
    | nil =>
        cases heq
        exact .inl hfails
    | cons b before =>
        cases heq
        obtain ⟨hd, hmet⟩ := allMet_cons.1 hmet
        exact .inr ⟨hd, before, e, after, rfl, hmet, hfails⟩
  · rintro (hfails | ⟨hd, before, e, after, rfl, hmet, hfails⟩)
    · exact ⟨[], d, ds, rfl, allMet_nil, hfails⟩
    · exact ⟨d :: before, e, after, rfl, allMet_cons.2 ⟨hd, hmet⟩, hfails⟩

/-- The first fault is a fault, and there is only one. -/
theorem FirstFault.not_allMet (h : FirstFault ds f) : ¬AllMet ds := by
  obtain ⟨before, d, after, rfl, -, hfails⟩ := h
  intro hmet
  exact hfails.not_met (hmet d (by simp))

theorem FirstFault.unique (hf : FirstFault ds f) (hg : FirstFault ds g) : f = g := by
  induction ds with
  | nil =>
      obtain ⟨before, d, after, heq, -⟩ := hf
      cases before <;> cases heq
  | cons d ds ih =>
      rcases firstFault_cons.1 hf with hdf | ⟨hd, hf⟩
      · rcases firstFault_cons.1 hg with hdg | ⟨hd, -⟩
        · exact hdf.unique hdg
        · exact absurd hd hdf.not_met
      · rcases firstFault_cons.1 hg with hdg | ⟨-, hg⟩
        · exact absurd hd hdg.not_met
        · exact ih hf hg

theorem FirstFault.append_right (h : FirstFault ds f) (es : List Demand) :
    FirstFault (ds ++ es) f := by
  obtain ⟨before, d, after, rfl, hmet, hfails⟩ := h
  exact ⟨before, d, after ++ es, by simp, hmet, hfails⟩

theorem FirstFault.append_left (h : FirstFault es f) (hmet : AllMet ds) :
    FirstFault (ds ++ es) f := by
  obtain ⟨before, d, after, rfl, hbefore, hfails⟩ := h
  exact ⟨ds ++ before, d, after, by simp, allMet_append.2 ⟨hmet, hbefore⟩, hfails⟩

end Demand

open Demand

variable {α β : Type} {ds es : List Demand} {x : Except Fault α} {k : α → Except Fault β}
  {f : Fault}

/-- A check succeeds only if all demands are met, and ends with no other fault than the first. -/
structure Judged (ds : List Demand) (x : Except Fault α) : Prop where
  allMet : ∀ a, x = .ok a → AllMet ds
  firstFault : ∀ f, x = .error f → FirstFault ds f

namespace Judged

/-- The check succeeds exactly if all demands are met. -/
theorem ok_iff (h : Judged ds x) : (∃ a, x = .ok a) ↔ AllMet ds := by
  constructor
  · rintro ⟨a, ha⟩
    exact h.allMet a ha
  · intro hmet
    cases hx : x with
    | ok a => exact ⟨a, rfl⟩
    | error f => exact absurd hmet (h.firstFault f hx).not_allMet

/-- It ends with a fault exactly if that is the first. -/
theorem error_iff (h : Judged ds x) : x = .error f ↔ FirstFault ds f := by
  constructor
  · exact h.firstFault f
  · intro hf
    cases hx : x with
    | ok a => exact absurd (h.allMet a hx) hf.not_allMet
    | error g => rw [hf.unique (h.firstFault g hx)]

theorem ok (a : α) : Judged [] (.ok a : Except Fault α) := ⟨fun _ _ => allMet_nil, nofun⟩

/-- A check may begin with one more demand. -/
theorem cons {d : Demand} (hfails : ∀ f, d.Fails f → x = .error f) (hd : d.Met ∨ ∃ f, d.Fails f)
    (hrest : d.Met → Judged ds x) : Judged (d :: ds) x := by
  rcases hd with hmet | ⟨g, hg⟩
  · have hrest := hrest hmet
    exact ⟨fun a ha => allMet_cons.2 ⟨hmet, hrest.allMet a ha⟩,
      fun f hf => firstFault_cons.2 (.inr ⟨hmet, hrest.firstFault f hf⟩)⟩
  · rw [hfails g hg]
    refine ⟨nofun, fun f hf => firstFault_cons.2 (.inl ?_)⟩
    obtain rfl := Except.error.inj hf
    exact hg

theorem that {holds : Prop} (hfails : ¬holds → x = .error f) (hrest : holds → Judged ds x) :
    Judged (.that holds f :: ds) x := by
  refine cons ?_ ?_ hrest
  · rintro g ⟨hnot, rfl⟩
    exact hfails hnot
  · by_cases h : holds
    · exact .inl h
    · exact .inr ⟨f, h, rfl⟩

theorem passes (judgement : Except Fault Credential.Accepted) :
    Judged [.passes judgement] judgement := by
  cases hx : judgement with
  | error f =>
      refine ⟨nofun, fun g hg => firstFault_cons.2 (.inl ?_)⟩
      exact hg
  | ok file =>
      exact ⟨fun _ _ => allMet_cons.2 ⟨⟨file, rfl⟩, allMet_nil⟩, nofun⟩

/-- Checks that are done one after the other. -/
theorem bind (hx : Judged ds x) (hk : ∀ a, x = .ok a → Judged es (k a)) :
    Judged (ds ++ es) (x >>= k) := by
  cases hx' : x with
  | error g =>
      refine ⟨nofun, fun f hf => ?_⟩
      obtain rfl : g = f := Except.error.inj hf
      exact (hx.firstFault g hx').append_right es
  | ok a =>
      have hka : Judged es (k a) := hk a hx'
      exact ⟨fun b hb => allMet_append.2 ⟨hx.allMet a hx', hka.allMet b hb⟩,
        fun f hf => (hka.firstFault f hf).append_left (hx.allMet a hx')⟩

/-- What is done with an outcome does not matter. -/
theorem map {g : α → β} (hx : Judged ds x) : Judged ds (x >>= fun a => .ok (g a)) := by
  have h := hx.bind (k := fun a => .ok (g a)) fun a _ => ok (g a)
  rwa [List.append_nil] at h

end Judged

end ConnectionSecurity
