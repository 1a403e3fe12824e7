import ConnectionSecurity.Proofs.Method.Gate
import ConnectionSecurity.Security.Basic

/-!
# What a type of security demands

A WEP key demands its length before its characters, and so does a shared key, unless it is asked for
every time. LEAP demands a login, and 802.1x what its method demands.
-/

namespace ConnectionSecurity

variable {fs : FileSystem} {report : Report}

/-! ## Characters -/

/-- A printable ASCII character, the blank included. -/
def Printable (c : Char) : Prop := ' ' ≤ c ∧ c ≤ '~'

/-- A hexadecimal digit in either case. -/
def HexDigit (c : Char) : Prop := '0' ≤ c ∧ c ≤ '9' ∨ 'a' ≤ c ∧ c ≤ 'f' ∨ 'A' ≤ c ∧ c ≤ 'F'

theorem printable_iff (c : Char) : (Text.isGraphic c || c == ' ') = true ↔ Printable c := by
  have hle : ∀ a b : Char, a ≤ b ↔ a.toNat ≤ b.toNat := fun _ _ => Iff.rfl
  have hblank : ' '.toNat = 32 := rfl
  have hmark : '!'.toNat = 33 := rfl
  have htilde : '~'.toNat = 126 := rfl
  simp only [Text.isGraphic, Printable, Bool.or_eq_true, Bool.and_eq_true, decide_eq_true_eq,
    beq_iff_eq, hle, ← Char.toNat_inj]
  omega

theorem hexDigit_iff (c : Char) : Text.isHexDigit c = true ↔ HexDigit c := by
  unfold Text.isHexDigit Text.hexDigit? HexDigit
  split
  next h => simp [h]
  next h =>
    split
    next h' => simp [h']
    next h' =>
      split
      next h'' => simp [h'']
      next h'' => simp [h, h', h'']

/-! ## Keys -/

namespace Security

/-- What is demanded of a WEP key or passphrase. A key of 5 or 13 characters is text, one of 10 or
26 characters is hexadecimal. -/
def wepKeyDemands (key : String) : Profile.WepKeyType → List Demand
  | .key => [
    .that (key.length = 5 ∨ key.length = 13 ∨ key.length = 10 ∨ key.length = 26)
      (.keyLength key.length),
    .that (∀ c ∈ key.toList, if key.length = 5 ∨ key.length = 13 then Printable c else HexDigit c)
      .keyCharacters]
  | .passphrase => [.that (1 ≤ key.length ∧ key.length ≤ 64) (.passphraseLength key.length)]

theorem judged_checkWepKey (key : String) (type : Profile.WepKeyType) :
    Judged (wepKeyDemands key type) (checkWepKey key type) := by
  cases type with
  | passphrase =>
      simp only [wepKeyDemands, checkWepKey]
      refine .that (fun hnot => if_neg hnot) fun hmet => ?_
      rw [if_pos hmet]
      exact .ok ()
  | key =>
      simp only [wepKeyDemands, checkWepKey]
      by_cases htext : key.length = 5 ∨ key.length = 13
      · simp only [htext, if_true, ← printable_iff, ← List.all_eq_true]
        refine .that (fun hnot => ?_) fun _ => ?_
        · exact absurd (by rcases htext with h | h <;> simp [h]) hnot
        · refine .that (fun hnot => if_neg hnot) fun hmet => ?_
          rw [if_pos hmet]
          exact .ok ()
      · simp only [htext, if_false, ← hexDigit_iff, ← List.all_eq_true]
        refine .that (fun hnot => ?_) fun hlength => ?_
        · rw [if_neg]
          rintro (h | h) <;> exact hnot (by simp [h])
        · have hhex : key.length = 10 ∨ key.length = 26 := by
            rcases hlength with h | h | h
            · exact absurd (.inl h) htext
            · exact absurd (.inr h) htext
            · exact h
          rw [if_pos hhex]
          refine .that (fun hnot => if_neg hnot) fun hmet => ?_
          rw [if_pos hmet]
          exact .ok ()

/-- What is demanded of a shared key. Its length is counted in bytes. -/
def pskDemands (psk : String) : List Demand := [
  .that (8 ≤ Bytes.sizeOfText psk ∧ Bytes.sizeOfText psk ≤ 64)
    (.passphraseLength (Bytes.sizeOfText psk)),
  .that (Bytes.sizeOfText psk = 64 → ∀ c ∈ psk.toList, HexDigit c) .passphraseCharacters]

theorem judged_checkPsk (psk : String) : Judged (pskDemands psk) (checkPsk psk) := by
  have hhex : psk.toList.all Text.isHexDigit = true ↔ ∀ c ∈ psk.toList, HexDigit c := by
    simp [List.all_eq_true, hexDigit_iff]
  unfold pskDemands checkPsk
  generalize Bytes.sizeOfText psk = n
  refine .that (fun hnot => if_pos (by omega)) fun hlength => ?_
  rw [if_neg (by omega)]
  refine .that (fun hnot => ?_) fun hmet => ?_
  · obtain ⟨hsize, hnot⟩ := Classical.not_imp.1 hnot
    rw [if_pos ⟨hsize, by simpa using fun h => hnot (hhex.1 h)⟩]
  · rw [if_neg]
    · exact .ok ()
    · rintro ⟨hsize, hfalse⟩
      cases hfalse.symm.trans (hhex.2 (hmet hsize))

/-! ## The wrappers -/

/-- The demands on a text that is kept. A text that is asked for every time is not looked at. -/
def keptDemands (c : Secret.Control) (ds : List Demand) : List Demand :=
  if c.policy = .notSaved then [] else ds

/-- The check of a text, unless it is asked for every time. Nobody is warned of anything. -/
def checkKept (c : Secret.Control) (x : Except Fault Unit) : Except Fault Report := do
  if c.policy.keepsText then x
  return []

theorem judged_checkKept {c : Secret.Control} {ds : List Demand} {x : Except Fault Unit}
    (h : Judged ds x) : Judged (keptDemands c ds) (checkKept c x) := by
  unfold keptDemands checkKept
  cases c.policy with
  | notSaved => exact .ok []
  | _ => exact h.map

theorem report_eq_checkKept {c : Secret.Control} {x : Except Fault Unit}
    (h : checkKept c x = .ok report) : report = [] := by
  unfold checkKept at h
  split at h
  · obtain ⟨_, -, h⟩ := Except.bind_eq_ok.1 h
    exact (Except.pure_eq_ok.1 h).symm
  · exact (Except.ok.inj h).symm

def Wep.demands (w : Wep) : List Demand :=
  keptDemands w.control (wepKeyDemands w.control.text w.keyType)

def Personal.demands (w : Personal) : List Demand := keptDemands w.psk (pskDemands w.psk.text)

/-- What a type of security demands. -/
def demands (fs : FileSystem) : Security → List Demand
  | wep w => w.demands
  | personal w => w.demands
  | enterprise w => w.method.demands fs
  | leap w => w.login.demands

/-- **A type of security is judged by its demands.** -/
theorem judged_validate (s : Security) (fs : FileSystem) :
    Judged (s.demands fs) (s.validate fs) := by
  cases s with
  | wep w => exact judged_checkKept (judged_checkWepKey w.control.text w.keyType)
  | personal w => exact judged_checkKept (judged_checkPsk w.psk.text)
  | enterprise w => exact w.method.judged_validate fs
  | leap w => exact w.login.judged_validate

/-- What a type of security warns of if it is fit: only 802.1x does. -/
def warnings (fs : FileSystem) : Security → Report
  | enterprise w => w.method.warnings fs
  | _ => []

theorem report_eq {s : Security} (h : s.validate fs = .ok report) : report = s.warnings fs := by
  cases s with
  | wep w => exact report_eq_checkKept h
  | personal w => exact report_eq_checkKept h
  | enterprise w => exact AuthMethod.report_eq h
  | leap w => exact AuthMethod.report_eq_login h

end Security

end ConnectionSecurity
