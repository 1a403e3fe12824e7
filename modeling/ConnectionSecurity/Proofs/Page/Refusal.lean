import ConnectionSecurity.Proofs.Page.Save
import ConnectionSecurity.Proofs.Waiver.Persist

/-!
# What a save that fails leaves behind

A save that ends at a fault has only told the page that it is not fit (`save_of_fault`). A save that
cannot persist the row has written the profile and the row in memory, but no file except the staging
one (`save_of_waiver`).
-/

namespace ConnectionSecurity.Page

variable {fs : FileSystem} {p : Profile} {page : Page}

theorem save_of_fault {fault : Fault} (h : (page.save fs p).result = .error (.fault fault)) :
    page.save fs p = ⟨.error (.fault fault), { page with state := .invalid }, p, fs⟩ := by
  rcases page.save_cases fs p with ⟨found, -, hs⟩ | ⟨report, fs', -, ⟨e, -, hs⟩ | ⟨-, hs⟩⟩
  · rw [hs] at h
    obtain rfl : found = fault := by injection h with h; injection h
    exact hs
  · rw [hs] at h
    injection h with h
    cases h
  · rw [hs] at h
    cases h

/-- Filling the page leaves the store behind the same file. -/
theorem path_load (page : Page) (fs : FileSystem) (p : Profile) :
    (page.load fs p).store.path = page.store.path := by
  unfold Page.load
  cases hpath : page.store.path with
  | none =>
      simp only [Waiver.Store.refresh_of_path_eq_none hpath]
      exact hpath
  | some path =>
      simp only [Waiver.Store.refresh_eq hpath]
      cases Waiver.readTable fs path <;> exact hpath

theorem save_of_waiver {e : Waiver.StoreError}
    (h : (page.save fs p).result = .error (.waiver e)) :
    (page.save fs p).page.state = .validated ∧
      ∃ path, page.store.path = some path ∧ Waiver.Kept fs path (page.save fs p).fs := by
  rcases page.save_cases fs p with ⟨found, -, hs⟩ | ⟨report, fs', -, ⟨e', hpersist, hs⟩ | ⟨-, hs⟩⟩
  · rw [hs] at h
    injection h with h
    cases h
  · obtain ⟨path, hpath, hkept⟩ := Waiver.Store.kept_persist hpersist
    rw [path_write] at hpath
    rw [hs]
    exact ⟨rfl, path, hpath, hkept⟩
  · rw [hs] at h
    cases h

end ConnectionSecurity.Page
