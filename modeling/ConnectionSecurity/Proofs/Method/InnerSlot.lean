import ConnectionSecurity.Proofs.Method.Reopen
import ConnectionSecurity.Proofs.Security.Switching

/-!
# The slot of the method inside a tunnel

A setting has two slots for the method inside a tunnel: one for a method that runs directly, and one
for a method that runs as EAP, which only TTLS knows. A reader may find anything in them, in any
case and in both at once; what it takes is an entry of the menu of the tunnel in any case. What is
written is unambiguous: the name of the tunnel, and the name of the method in one of the slots, and
the other slot is cleared (`Authentication.Names`).

A tunnel that was made of a setting runs the entry that was read from it. Every choice from its menu
makes it run another one (`AuthMethod.Runs.selectInner`), so the entry is the one chosen last, and
it is found again in what is written (`AuthMethod.inner_slot`).
-/

namespace ConnectionSecurity

open Method Profile

variable {fs : FileSystem} {session : Session} {waivers : Waiver.Table}

/-! ## What is written -/

/-- The methods that TTLS runs as EAP. -/
def Method.TunnelKind.RunsAsEap (k : TunnelKind) (entry : InnerKind) : Prop :=
  k = .ttls ∧ (entry = .mschapv2Eap ∨ entry = .md5 ∨ entry = .gtc)

/-- A setting names a tunnel as its only method, and in one of the two slots the method inside, in
small letters. -/
structure Profile.Authentication.Names (k : TunnelKind) (entry : InnerKind) (a : Authentication) :
    Prop where
  eap : a.eap = [Text.lowered k.label]
  asEap : k.RunsAsEap entry →
    a.innerAuth = none ∧ a.innerAuthEap = some (Text.lowered entry.method.label)
  direct : ¬k.RunsAsEap entry →
    a.innerAuth = some (Text.lowered entry.method.label) ∧ a.innerAuthEap = none

theorem Method.TunnelKind.lowered_label (k : TunnelKind) : Text.lowered k.label = k.name := by
  cases k <;> decide

theorem Method.PasswordKind.lowered_label (k : PasswordKind) : Text.lowered k.label = k.name := by
  cases k <;> decide

theorem Method.TunnelKind.slot_eq_innerEap {k : TunnelKind} {entry : InnerKind} :
    k.slot entry = .innerEap ↔ k.RunsAsEap entry := by
  unfold RunsAsEap
  cases k <;> cases entry <;> decide

namespace AuthMethod

variable {k : TunnelKind} {entry : InnerKind} {m : AuthMethod}

/-! ## What runs inside -/

/-- The tunnel of a kind runs the method of an entry of its menu inside. -/
structure Runs (k : TunnelKind) (entry : InnerKind) (m : AuthMethod) : Prop where
  mem_menu : entry ∈ k.menu
  fits : m.Fits k.methodKind
  shape : ∃ t login, t.kind = k ∧ t.innerKind = entry ∧
    m = tunnel t (password ⟨entry.method, k.slot entry, login⟩)

/-- A tunnel that is made of a setting runs the entry that is read from it. -/
theorem runs_make (k : TunnelKind) (a : Option Authentication) :
    (k.methodKind.make a session waivers).Runs k (k.innerOf a) := by
  refine ⟨TunnelKind.mem_menu_iff.2 (k.offers_innerOf a), fits_make _ _ _ _, ?_⟩
  refine ⟨.ofSetting k a session waivers, .ofSetting a session.defaultPolicy,
    TunnelOptions.kind_ofSetting k a, rfl, ?_⟩
  rw [make_methodKind]
  show tunnel _ (password ⟨_, (k.slot (k.innerOf a)).granted (k.innerOf a).method, _⟩) = _
  rw [TunnelKind.granted_slot]
  rfl

/-- Choosing an entry of the menu makes the tunnel run it. -/
theorem Runs.selectInner (h : m.Runs k entry) (fs : FileSystem) (session : Session)
    {next : InnerKind} (hnext : next ∈ k.menu) :
    (m.edit fs session (.selectInner next)).1 = .done ∧
      (m.edit fs session (.selectInner next)).2.Runs k next := by
  have hfits : (m.edit fs session (.selectInner next)).2.Fits k.methodKind := h.fits.edit _
  obtain ⟨t, login, rfl, -, rfl⟩ := h.shape
  simp only [AuthMethod.edit, selectInner_eq, if_pos (TunnelKind.mem_menu_iff.1 hnext)]
    at hfits ⊢
  refine ⟨trivial, hnext, hfits, { t with innerKind := next }, ?_⟩
  rw [into_password]
  exact ⟨_, rfl, rfl, rfl⟩

/-- An entry that the menu lacks is refused, and the tunnel stays as it is. -/
theorem Runs.selectInner_of_not_mem (h : m.Runs k entry) (fs : FileSystem) (session : Session)
    {next : InnerKind} (hnext : next ∉ k.menu) :
    (m.edit fs session (.selectInner next)).1 ≠ .done ∧
      (m.edit fs session (.selectInner next)).2 = m := by
  have hfits := h.fits
  obtain ⟨t, login, rfl, -, rfl⟩ := h.shape
  have hrefused : ((tunnel t (password ⟨entry.method, t.kind.slot entry, login⟩)).edit fs session
      (.selectInner next)).1 = .refused ⟨next.label, t.kind.label⟩ :=
    edit_selectInner_eq_refused hnext
  obtain ⟨hsame, -⟩ := exists_of_edit_eq_refused hfits hrefused
  refine ⟨fun hdone => ?_, hsame⟩
  cases hrefused.symm.trans hdone

/-! ## Choosing again and again -/

/-- Choose entries for the method inside, one after the other. -/
def chooseInside (fs : FileSystem) (session : Session) (m : AuthMethod)
    (chosen : List InnerKind) : AuthMethod :=
  chosen.foldl (fun m next => (m.edit fs session (.selectInner next)).2) m

/-- What runs inside is what was chosen last, of the entries that the menu has. -/
theorem Runs.chooseInside (h : m.Runs k entry) (chosen : List InnerKind) :
    (m.chooseInside fs session chosen).Runs k (((chosen.filter k.offers).getLast?).getD entry) := by
  induction chosen generalizing m entry with
  | nil => exact h
  | cons next chosen ih =>
      by_cases hnext : next ∈ k.menu
      · obtain ⟨-, hruns⟩ := h.selectInner fs session hnext
        rw [List.filter_cons_of_pos (TunnelKind.mem_menu_iff.1 hnext), List.getLast?_cons]
        exact ih hruns
      · obtain ⟨-, hsame⟩ := h.selectInner_of_not_mem fs session hnext
        rw [List.filter_cons_of_neg (mt TunnelKind.mem_menu_iff.2 hnext)]
        rw [← hsame] at h
        exact ih h

/-! ## The written setting -/

/-- A method inside a tunnel writes its name into its own slot and clears the other one. -/
theorem slots_write (k : TunnelKind) (entry : InnerKind) (login : Login) (a : Authentication) :
    let written := Password.write ⟨entry.method, k.slot entry, login⟩ a
    (k.RunsAsEap entry →
      written.innerAuth = none ∧ written.innerAuthEap = some entry.method.name) ∧
    (¬k.RunsAsEap entry →
      written.innerAuth = some entry.method.name ∧ written.innerAuthEap = none) := by
  intro written
  rw [← TunnelKind.slot_eq_innerEap]
  cases hslot : k.slot entry with
  | outer => exact absurd hslot (k.slot_ne_outer entry)
  | inner =>
      refine ⟨nofun, fun _ => ?_⟩
      simp only [written, hslot]
      exact ⟨rfl, rfl⟩
  | innerEap =>
      refine ⟨fun _ => ?_, fun hne => absurd rfl hne⟩
      simp only [written, hslot]
      exact ⟨rfl, rfl⟩

/-- A tunnel writes its own name and that of the method inside. -/
theorem Runs.names_write (h : m.Runs k entry) (prior : Authentication × Waiver.Table) :
    (m.write fs session prior).1.Names k entry := by
  have heap : (m.write fs session prior).1.eap = [k.methodKind.name] :=
    eap_write prior.1 prior.2 h.fits
  obtain ⟨t, login, rfl, -, rfl⟩ := h.shape
  obtain ⟨hasEap, hdirect⟩ :=
    slots_write t.kind entry login (t.write fs session prior).1
  rw [← PasswordKind.lowered_label] at hasEap hdirect
  refine ⟨?_, hasEap, hdirect⟩
  rw [heap, TunnelKind.lowered_label]
  cases t.kind <;> rfl

/-- The entry is read back from what a tunnel writes. -/
theorem Runs.innerOf_write (h : m.Runs k entry) (prior : Authentication × Waiver.Table) :
    k.innerOf (some (m.write fs session prior).1) = entry := by
  have hoffers : k.offers entry = true := TunnelKind.mem_menu_iff.1 h.mem_menu
  obtain ⟨t, login, rfl, -, rfl⟩ := h.shape
  exact TunnelKind.innerOf_write hoffers login (t.write fs session prior).1

theorem runsOver_methodKind (k : TunnelKind) (medium : Medium) :
    k.methodKind.runsOver medium = true := by
  cases k <;> rfl

/-- **The slot of the method inside.** Take a tunnel that is made of any setting, with any texts in
the two slots, or without a setting, and choose any entries for the method inside. The entry that is
read from the setting is in the menu; an entry can be chosen exactly if it is in the menu, and the
last one chosen runs inside. Whatever the tunnel is then written over, what is written has the name
of the tunnel as its only method, and the name of the method inside in small letters in one of the
slots and nothing in the other. It is the slot of the methods that run as EAP if the tunnel is TTLS
and the entry is MSCHAPv2 (EAP), MD5 or GTC, and else the slot of those that run directly. Read over
either medium, the setting that was written stands for the same tunnel and the same entry. -/
theorem inner_slot (k : TunnelKind) (a : Option Authentication) (session : Session)
    (waivers : Waiver.Table) (fs : FileSystem) (chosen : List InnerKind) :
    let m := (k.methodKind.make a session waivers).chooseInside fs session chosen
    let entry := ((chosen.filter (· ∈ k.menu)).getLast?).getD (k.innerOf a)
    k.innerOf a ∈ k.menu ∧ entry ∈ k.menu ∧
      (∀ next, (m.edit fs session (.selectInner next)).1 = .done ↔ next ∈ k.menu) ∧
      ∀ (fs' : FileSystem) (session' : Session) (prior : Authentication × Waiver.Table)
        (medium : Medium),
        let written := (m.write fs' session' prior).1
        written.Names k entry ∧ MethodKind.ofSetting (some written) medium = k.methodKind ∧
          k.innerOf (some written) = entry := by
  intro m entry
  have hmade : (k.methodKind.make a session waivers).Runs k (k.innerOf a) := runs_make k a
  have hruns : m.Runs k entry := by
    have hfilter : chosen.filter (· ∈ k.menu) = chosen.filter k.offers := by
      refine List.filter_congr fun next _ => ?_
      rw [Bool.eq_iff_iff, decide_eq_true_iff, TunnelKind.mem_menu_iff]
    show Runs k ((chosen.filter (· ∈ k.menu)).getLast?.getD _) m
    rw [hfilter]
    exact hmade.chooseInside chosen
  refine ⟨hmade.mem_menu, hruns.mem_menu, fun next => ⟨fun hdone => ?_, fun hnext => ?_⟩, ?_⟩
  · by_contra hnext
    exact (hruns.selectInner_of_not_mem fs session hnext).1 hdone
  · exact (hruns.selectInner fs session hnext).1
  · intro fs' session' prior medium written
    exact ⟨hruns.names_write prior,
      ofSetting_write prior.1 prior.2 hruns.fits (runsOver_methodKind k medium),
      hruns.innerOf_write prior⟩

end AuthMethod

end ConnectionSecurity
