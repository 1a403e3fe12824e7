import ConnectionSecurity.Proofs.Page.Save
import ConnectionSecurity.Proofs.Security.Gate

/-!
# What a page demands

A network demands a name, and one without an access point a type of security that will do for it;
then come the demands of the security. A validation succeeds exactly if all are met, ends with the
fault of the first that is not, and reports exactly what can be read off the page (`validate_iff`).
-/

namespace ConnectionSecurity.Page

open Demand

/-- What a page demands before it is saved into a profile, in the order in which it is looked at. -/
def demands (page : Page) (fs : FileSystem) (p : Profile) : List Demand :=
  [.that (p.connection.medium = .wireless → ∃ w ssid, p.wireless = some w ∧ w.ssid = some ssid ∧
      ssid ≠ "") .missingSsid,
    .that (∀ w, p.wireless = some w → w.mode = .adhoc →
      page.kind = .none ∨ (∃ type, page.kind = .wep type) ∨ page.kind = .wpaPsk)
      (.adhocIncompatible page.kind.label)] ++
  match page.security with
  | some s => s.demands fs
  | none => []

/-- What a fit page is warned of. -/
def warnings (page : Page) (fs : FileSystem) : Report :=
  match page.security with
  | some s => s.warnings fs
  | none => []

/-! ## The profile -/

theorem nameless_iff (p : Profile) : (p.isWireless && p.ssid.isNone) = true ↔
    ¬(p.connection.medium = .wireless →
      ∃ w ssid, p.wireless = some w ∧ w.ssid = some ssid ∧ ssid ≠ "") := by
  rw [Classical.not_imp, Bool.and_eq_true, Profile.isWireless, beq_iff_eq, Profile.ssid,
    Option.isNone_iff_eq_none, Option.filter_eq_none_iff]
  refine and_congr_right fun _ => ?_
  cases p.wireless <;> simp

theorem suitsAdhoc_iff (kind : SecurityKind) : kind.suitsAdhoc = true ↔
    kind = .none ∨ (∃ type, kind = .wep type) ∨ kind = .wpaPsk := by
  cases kind <;> simp [SecurityKind.suitsAdhoc]

theorem unsuitable_iff (page : Page) (p : Profile) : (p.isAdhoc && !page.kind.suitsAdhoc) = true ↔
    ¬∀ w, p.wireless = some w → w.mode = .adhoc →
      page.kind = .none ∨ (∃ type, page.kind = .wep type) ∨ page.kind = .wpaPsk := by
  rw [← suitsAdhoc_iff, Profile.isAdhoc]
  cases p.wireless with
  | none => simp
  | some w => simp

/-! ## The gate -/

theorem judged_check (page : Page) (fs : FileSystem) (p : Profile) :
    Judged (page.demands fs p) (page.check fs p) := by
  unfold demands check
  refine .that (fun hnot => if_pos ((nameless_iff p).2 hnot)) fun hname => ?_
  rw [if_neg fun h => (nameless_iff p).1 h hname]
  refine .that (fun hnot => if_pos ((unsuitable_iff page p).2 hnot)) fun hsuits => ?_
  rw [if_neg fun h => (unsuitable_iff page p).1 h hsuits]
  cases page.security with
  | none => exact .ok []
  | some s => exact s.judged_validate fs

theorem report_eq {page : Page} {fs : FileSystem} {p : Profile} {report : Report}
    (h : page.check fs p = .ok report) : report = page.warnings fs := by
  unfold check at h
  split at h
  next => cases h
  next =>
    split at h
    next => cases h
    next =>
      unfold warnings
      cases hs : page.security with
      | none =>
          rw [hs] at h
          exact (Except.ok.inj h).symm
      | some s =>
          rw [hs] at h
          exact s.report_eq h

/-- **A validation is exact.** It succeeds if and only if all demands are met, with a report of the
warnings that can be read off the page; and it ends with a fault if and only if that is the fault of
the first demand that is not met. -/
theorem validate_iff (page : Page) (fs : FileSystem) (p : Profile) :
    (∀ report, (page.validate fs p).1 = .ok report ↔
      AllMet (page.demands fs p) ∧ report = page.warnings fs) ∧
    ∀ fault, (page.validate fs p).1 = .error fault ↔ FirstFault (page.demands fs p) fault := by
  have hjudged := page.judged_check fs p
  rw [result_validate]
  refine ⟨fun report => ?_, fun _ => hjudged.error_iff⟩
  constructor
  · intro h
    exact ⟨hjudged.allMet report h, report_eq h⟩
  · rintro ⟨hmet, rfl⟩
    obtain ⟨report, h⟩ := hjudged.ok_iff.2 hmet
    rw [h, report_eq h]

end ConnectionSecurity.Page
