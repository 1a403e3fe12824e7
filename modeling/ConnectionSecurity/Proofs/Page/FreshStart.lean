import ConnectionSecurity.Proofs.Page.Choice

/-!
# Another type of security starts from nothing

Choosing another type of security makes a new one of the profile without its security. All that
such a profile still says is whether its network has an access point; the rest comes from the
session and, for the box beside a CA certificate, from the row of waivers. So the new security can
be written down without a profile (`Security.fresh`, `Security.ofKind?_clearSecurity`), and it is
the same whatever was entered into the page and whatever the profile holds
(`Page.starts_from_scratch`).
-/

namespace ConnectionSecurity

open Method Secret

/-! ## Nothing entered -/

namespace Security

/-- 802.1x that nothing was entered into: the first method that the medium has. A ticked box is
remembered from an earlier edit of the connection. -/
def Enterprise.fresh (dynamicWep : Bool) (session : Session) (row : Waiver.Row) : Enterprise :=
  let control : Control := .empty session.defaultPolicy
  match session.medium with
  | .wired => ⟨dynamicWep, .wired, .md5, .password ⟨.md5, .outer, "", control⟩⟩
  | .wireless =>
    ⟨dynamicWep, .wireless, .tls,
      .tls { ca := { phase := .outer, notRequired := row.outer }, keyPassword := control }⟩

/-- The security behind a menu entry that nothing was entered into. -/
def fresh (kind : SecurityKind) (session : Session) (adhoc : Bool) (row : Waiver.Row) :
    Option Security :=
  let control : Control := .empty session.defaultPolicy
  match kind with
  | .none => none
  | .wep keyType =>
    some (wep { keyType, adhoc, control, index := ⟨0, Profile.wepKeyCount_pos⟩ })
  | .leap => some (leap ⟨"", control⟩)
  | .dynamicWep => some (enterprise (.fresh true session row))
  | .wpaPsk => some (personal ⟨false, control⟩)
  | .sae => some (personal ⟨true, control⟩)
  | .wpaEnterprise => some (enterprise (.fresh false session row))

variable (p : Profile) (session : Session) (waivers : Waiver.Table)

theorem Enterprise.ofProfile_clearSecurity (dynamicWep : Bool) :
    Enterprise.ofProfile dynamicWep p.clearSecurity session waivers =
      .fresh dynamicWep session (waivers.row session.uuid) := by
  have hnone : p.clearSecurity.authentication = none := rfl
  unfold ofProfile fresh
  rw [hnone]
  cases session.medium with
  | wired => rfl
  | wireless => rfl

/-- Of a profile without its security, a menu entry makes a security that nothing was entered
into. -/
theorem ofKind?_clearSecurity (kind : SecurityKind) :
    ofKind? kind p.clearSecurity session waivers =
      fresh kind session p.isAdhoc (waivers.row session.uuid) := by
  cases kind with
  | none => rfl
  | wep keyType =>
      have hadhoc := p.isAdhoc_clearSecurity
      have hmade : Wep.ofProfile keyType p.clearSecurity session =
          { keyType, adhoc := p.clearSecurity.isAdhoc,
            control := .empty session.defaultPolicy } := rfl
      rw [ofKind?, hmade, hadhoc]
      rfl
  | leap => rfl
  | dynamicWep => rw [ofKind?, Enterprise.ofProfile_clearSecurity]; rfl
  | wpaPsk => rfl
  | sae => rfl
  | wpaEnterprise => rw [ofKind?, Enterprise.ofProfile_clearSecurity]; rfl

end Security

/-! ## Choosing another type -/

namespace Page

variable {page other : Page} {kind : SecurityKind} {p q : Profile}

/-- The page after another type was chosen: of the profile only the mode of the network counts. -/
theorem select_eq_fresh (hmem : kind ∈ page.menu) (hne : kind ≠ page.kind) (p : Profile) :
    page.select kind p = .ok { page with
      kind
      security :=
        Security.fresh kind page.session p.isAdhoc (page.store.table.row page.session.uuid)
      state := .configured } := by
  have hother : ¬(kind = page.kind ∧ page.state ≠ .uninitialized) := fun h => hne h.1
  rw [Page.select, if_neg (by simpa using hmem), if_neg hother, Security.ofKind?_clearSecurity]

/-- **Another type of security starts from nothing.** Take two pages of the same session, whatever
they were filled with, that have the same waivers for the connection, and two profiles, whatever
they hold, whose networks both have an access point or both have none. Choosing a type of the menu
that is chosen on neither page succeeds on both and leaves the same security: the one that nothing
was entered into. The profile is only read, and what it holds is not lost: once it is loaded again,
a page shows what it would have shown without the choice. -/
theorem starts_from_scratch (hsession : page.session = other.session)
    (hrow : page.store.table.row page.session.uuid = other.store.table.row other.session.uuid)
    (hmode : p.isAdhoc = q.isAdhoc) (hmem : kind ∈ page.menu) (hpage : kind ≠ page.kind)
    (hother : kind ≠ other.kind) :
    ∃ after after', page.select kind p = .ok after ∧ other.select kind q = .ok after' ∧
      after.kind = kind ∧ after'.kind = kind ∧ after.security = after'.security ∧
      after.security =
        Security.fresh kind page.session p.isAdhoc (page.store.table.row page.session.uuid) ∧
      ∀ fs r, after.load fs r = page.load fs r ∧ after'.load fs r = other.load fs r := by
  have hmem' : kind ∈ other.menu := by
    rwa [menu, ← hsession]
  refine ⟨_, _, select_eq_fresh hmem hpage p, select_eq_fresh hmem' hother q, rfl, rfl, ?_, rfl,
    fun fs r => ⟨rfl, rfl⟩⟩
  rw [hsession] at hrow ⊢
  rw [hrow, hmode]

/-- Pages that were filled with a shared key and with a password for 802.1x are the same once WPA3
was chosen on both. -/
theorem starts_from_scratch_sae :
    let page := (Page.new homeSession .inMemory).load (.blank []) keyed
    let other := (Page.new homeSession .inMemory).load (.blank []) entrusted
    page.security ≠ other.security ∧
      ∃ after after', page.select .sae keyed = .ok after ∧
        other.select .sae entrusted = .ok after' ∧ after.security = after'.security ∧
        after.security = some (.personal ⟨true, "", .stored, false⟩) := by
  intro page other
  have hdiffer : page.security.map (·.kind) ≠ other.security.map (·.kind) := by
    have hkind : page.security.map (·.kind) = some .wpaPsk := by cbv
    have hkind' : other.security.map (·.kind) = some .wpaEnterprise := by cbv
    rw [hkind, hkind']
    decide
  have hsession : page.session = other.session := rfl
  have hrow : page.store.table.row page.session.uuid =
      other.store.table.row other.session.uuid := by cbv
  have hmode : keyed.isAdhoc = entrusted.isAdhoc := rfl
  have hmem : SecurityKind.sae ∈ page.menu := by decide
  have hpage : SecurityKind.sae ≠ page.kind := by
    rw [show page.kind = .wpaPsk by cbv]
    decide
  have hother : SecurityKind.sae ≠ other.kind := by
    rw [show other.kind = .wpaEnterprise by cbv]
    decide
  obtain ⟨after, after', hafter, hafter', -, -, hsame, hfresh, -⟩ :=
    starts_from_scratch hsession hrow hmode hmem hpage hother
  exact ⟨fun h => hdiffer (congrArg _ h), after, after', hafter, hafter', hsame, hfresh⟩

end Page

end ConnectionSecurity
