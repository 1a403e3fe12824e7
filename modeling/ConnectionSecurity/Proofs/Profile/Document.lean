import ConnectionSecurity.Profile.File
import ConnectionSecurity.Proofs.Secret.FlagText
import ConnectionSecurity.Proofs.Toml.Record

/-!
# A profile is read back from its document

Every profile is read back from the document that it is written as (`parse_print`). The proof
follows the codec: first each kind of field, which is read as it was set whether it was written or
left out (`ReadsField`), then each setting as a record of such fields (`Codes`), then the profile as
a record of settings.
-/

namespace ConnectionSecurity.Profile

open Toml

variable {depth : Nat} {α : Type}

/-! ## Fields that can be printed -/

@[simp] theorem printable_text (s : String) : Printable depth (.text s) :=
  .of_inline (.text depthLimit s)

@[simp] theorem printableField_map_text (f : α → String) (a : Option α) :
    PrintableField depth (a.map fun a => .text (f a)) := by
  cases a with
  | none => exact printableField_none
  | some a => exact printableField_some.2 (printable_text (f a))

@[simp] theorem printableField_textField (s : Option String) :
    PrintableField depth (textField s) :=
  printableField_map_text id s

@[simp] theorem printableField_textsField (ss : List String) :
    PrintableField depth (textsField ss) := by
  unfold textsField
  split
  · exact printableField_none
  · -- One level of arrays out of the eighty that may be nested (`depthLimit`).
    refine printableField_some.2 (.of_inline (.array 79 _ ?_))
    intro v hv
    obtain ⟨s, -, rfl⟩ := List.mem_map.1 hv
    exact .text 79 s

@[simp] theorem printableField_flagsField (f : Secret.Flags) :
    PrintableField depth (flagsField f) := by
  unfold flagsField
  split
  · exact printableField_none
  · exact printableField_some.2 (printable_text f.text)

@[simp] theorem printableField_wordField (n : UInt32) : PrintableField depth (wordField n) := by
  unfold wordField
  split
  · exact printableField_none
  · refine printableField_some.2 (.of_inline (.integer depthLimit _ ?_))
    have hn : n.toNat < 2 ^ 32 := n.toNat_lt
    have hrange : (2 : Nat) ^ 32 < Nat.pow 2 128 := by decide
    simp only [inIntegerRange, Bool.and_eq_true, decide_eq_true_eq]
    omega

@[simp] theorem printableField_trueField (b : Bool) : PrintableField depth (trueField b) := by
  cases b with
  | true => exact printableField_some.2 (.of_inline (.boolean depthLimit true))
  | false => exact printableField_none

/-! ## Fields that are read -/

theorem readsField_textField (s : Option String) :
    ReadsField (fun v => (Value.text? v).map some) none (textField s) s := by
  cases s <;> rfl

theorem texts?_settled (ss : List String) :
    Value.texts? (Value.array (ss.map .text)).settled = some ss := by
  show (ss.map Value.text).mapM Value.text? = some ss
  rw [List.mapM_map]
  show ss.mapM (fun s => pure (id s)) = some ss
  rw [List.mapM_pure, List.map_id]
  rfl

theorem readsField_textsField (ss : List String) :
    ReadsField Value.texts? [] (textsField ss) ss := by
  cases ss with
  | nil => rfl
  | cons s ss => exact texts?_settled (s :: ss)

theorem readsField_flagsField (f : Secret.Flags) : ReadsField flags? .none (flagsField f) f := by
  unfold flagsField
  split
  next hempty => exact congrArg Secret.Flags.mk (beq_iff_eq.1 hempty)
  next => exact f.ofText?_text

theorem readsField_wordField (n : UInt32) : ReadsField Value.word? 0 (wordField n) n := by
  unfold wordField
  split
  next hzero => exact beq_iff_eq.1 hzero
  next =>
    show Value.word? (.integer n.toNat) = some n
    have hn := n.toNat_lt_size
    simp [Value.word?, hn]

theorem readsField_trueField (b : Bool) :
    ReadsField Value.boolean? false (trueField b) b := by
  cases b <;> rfl

/-! ## Choices -/

theorem medium?_mediumName (m : Medium) : medium? (mediumName m) = some m := by cases m <;> rfl

theorem Mode.ofName?_name (m : Mode) : Mode.ofName? m.name = some m := by cases m <;> rfl

theorem WepKeyType.ofName?_name (t : WepKeyType) : WepKeyType.ofName? t.name = some t := by
  cases t <;> rfl

/-- A choice that is always written. -/
theorem readsField_choice {name : α → String} {ofName? : String → Option α} {a : α}
    (h : ofName? (name a) = some a) (default : α) :
    ReadsField (Value.choice? ofName?) default (some (.text (name a))) a := h

theorem readsField_wepKeyType (t : Option WepKeyType) :
    ReadsField (fun v => (Value.choice? WepKeyType.ofName? v).map some) none
      (t.map fun t => .text t.name) t := by
  cases t with
  | none => rfl
  | some t => exact congrArg (Option.map some) t.ofName?_name

/-! ## Settings -/

theorem Connection.codes (c : Connection) : Codes 2 Connection.ofValue? c.toValue c := by
  refine Codes.ofFields (by simp) (by simp) fun r hr => ?_
  refine required_bind (hr rfl) rfl ?_
  refine required_bind (hr rfl) rfl ?_
  refine withDefault_bind (hr rfl) (readsField_choice (medium?_mediumName _) _) ?_
  rfl

theorem Wireless.codes (w : Wireless) : Codes 2 Wireless.ofValue? w.toValue w := by
  refine Codes.ofFields (by simp) (by simp) fun r hr => ?_
  refine optional_bind (hr rfl) (readsField_textField _) ?_
  refine withDefault_bind (hr rfl) (readsField_choice (Mode.ofName?_name _) _) ?_
  refine optional_bind (hr rfl) (readsField_textField _) ?_
  rfl

/-- The four slots are all there is. -/
theorem WirelessSecurity.wepKeys_eq (s : WirelessSecurity) :
    #v[s.wepKey 0, s.wepKey 1, s.wepKey 2, s.wepKey 3] = s.wepKeys := by
  have hkey (i : Nat) (hi : i < wepKeyCount) : s.wepKey i = s.wepKeys[i] := by
    rw [wepKey, Vector.getElem?_eq_getElem hi, Option.join_some]
  ext1 i hi
  rw [← hkey i hi]
  obtain rfl | rfl | rfl | rfl : i = 0 ∨ i = 1 ∨ i = 2 ∨ i = 3 := by omega
  all_goals rfl

theorem WirelessSecurity.codes (s : WirelessSecurity) :
    Codes 2 WirelessSecurity.ofValue? s.toValue s := by
  refine Codes.ofFields (by simp) (by simp) fun r hr => ?_
  -- One field after the other, in the order in which the reader asks for them.
  refine required_bind (hr rfl) rfl ?_
  refine optional_bind (hr rfl) (readsField_textField _) ?_
  refine withDefault_bind (hr rfl) (readsField_textsField _) ?_
  refine withDefault_bind (hr rfl) (readsField_textsField _) ?_
  refine withDefault_bind (hr rfl) (readsField_textsField _) ?_
  refine optional_bind (hr rfl) (readsField_textField _) ?_
  refine optional_bind (hr rfl) (readsField_textField _) ?_
  refine optional_bind (hr rfl) (readsField_textField _) ?_
  refine optional_bind (hr rfl) (readsField_textField _) ?_
  refine withDefault_bind (hr rfl) (readsField_wordField _) ?_
  refine optional_bind (hr rfl) (readsField_wepKeyType _) ?_
  refine withDefault_bind (hr rfl) (readsField_flagsField _) ?_
  refine optional_bind (hr rfl) (readsField_textField _) ?_
  refine withDefault_bind (hr rfl) (readsField_flagsField _) ?_
  refine optional_bind (hr rfl) (readsField_textField _) ?_
  refine optional_bind (hr rfl) (readsField_textField _) ?_
  refine withDefault_bind (hr rfl) (readsField_flagsField _) ?_
  -- The four keys are fields of their own and one vector in the setting.
  rw [wepKeys_eq]
  rfl

theorem FileRef.codes (f : FileRef) : Codes 1 FileRef.ofValue? f.toValue f := by
  refine Codes.ofFields (by simp) (by simp) fun r hr => ?_
  refine required_bind (hr rfl) rfl ?_
  refine required_bind (hr rfl) f.format.ofName?_name ?_
  rfl

/-! ## Settings in a profile -/

section Record

variable {toValue : α → Value} {ofValue? : Value → Option α}

/-- A record that may be left out can be printed if the record can. -/
theorem printableField_record (h : ∀ a, Codes depth ofValue? (toValue a) a) (a : Option α) :
    PrintableField depth (a.map toValue) := by
  cases a with
  | none => exact printableField_none
  | some a => exact printableField_some.2 (h a).printable

theorem readsField_record (h : ∀ a, Codes depth ofValue? (toValue a) a) (a : Option α) :
    ReadsField (fun v => (ofValue? v).map some) none (a.map toValue) a := by
  cases a with
  | none => rfl
  | some a => exact congrArg (Option.map some) (h a).read_eq

end Record

@[simp] theorem printableField_fileRef (f : Option FileRef) :
    PrintableField 1 (f.map FileRef.toValue) :=
  printableField_record FileRef.codes f

theorem readsField_fileRef (f : Option FileRef) :
    ReadsField (fun v => (FileRef.ofValue? v).map some) none (f.map FileRef.toValue) f :=
  readsField_record FileRef.codes f

theorem Authentication.codes (a : Authentication) :
    Codes 2 Authentication.ofValue? a.toValue a := by
  refine Codes.ofFields (by simp) (by simp) fun r hr => ?_
  refine withDefault_bind (hr rfl) (readsField_textsField _) ?_
  refine optional_bind (hr rfl) (readsField_textField _) ?_
  refine optional_bind (hr rfl) (readsField_textField _) ?_
  refine optional_bind (hr rfl) (readsField_textField _) ?_
  refine withDefault_bind (hr rfl) (readsField_trueField _) ?_
  refine optional_bind (hr rfl) (readsField_fileRef _) ?_
  refine optional_bind (hr rfl) (readsField_fileRef _) ?_
  refine optional_bind (hr rfl) (readsField_fileRef _) ?_
  refine optional_bind (hr rfl) (readsField_textField _) ?_
  refine withDefault_bind (hr rfl) (readsField_flagsField _) ?_
  refine optional_bind (hr rfl) (readsField_textField _) ?_
  refine withDefault_bind (hr rfl) (readsField_flagsField _) ?_
  refine optional_bind (hr rfl) (readsField_textField _) ?_
  refine optional_bind (hr rfl) (readsField_textField _) ?_
  refine optional_bind (hr rfl) (readsField_textField _) ?_
  refine optional_bind (hr rfl) (readsField_textField _) ?_
  refine optional_bind (hr rfl) (readsField_textField _) ?_
  refine optional_bind (hr rfl) (readsField_fileRef _) ?_
  refine optional_bind (hr rfl) (readsField_fileRef _) ?_
  refine optional_bind (hr rfl) (readsField_fileRef _) ?_
  refine optional_bind (hr rfl) (readsField_textField _) ?_
  refine withDefault_bind (hr rfl) (readsField_flagsField _) ?_
  rfl

/-! ## Profiles -/

theorem names_settings (p : Profile) : (p.settings.map (·.1)).Nodup := by
  simp [settings, wirelessSecurityName]

theorem codes (p : Profile) : Codes 3 ofValue? (.ofFields p.settings) p := by
  have hprintable : ∀ f ∈ p.settings, PrintableField 2 f.2 := by
    simp only [settings, List.forall_mem_cons]
    exact ⟨printableField_some.2 p.connection.codes.printable,
      printableField_record Wireless.codes p.wireless,
      printableField_record WirelessSecurity.codes p.wirelessSecurity,
      printableField_record Authentication.codes p.authentication,
      fun f hf => by cases hf⟩
  refine Codes.ofFields p.names_settings hprintable fun r hr => ?_
  refine required_bind (hr rfl) p.connection.codes.read_eq ?_
  refine optional_bind (hr rfl) (readsField_record Wireless.codes _) ?_
  refine optional_bind (hr rfl) (readsField_record WirelessSecurity.codes _) ?_
  refine optional_bind (hr rfl) (readsField_record Authentication.codes _) ?_
  rfl

/-- The document of a profile holds its settings, each with its lines first. -/
theorem read?_print (p : Profile) :
    read? p.print = some (settledEntries (setFields p.settings)) := by
  have hregular : Regular 3 (setFields p.settings) := p.codes.printable.table _ rfl
  exact hregular.read?_print (by decide)

/-- A setting is in the document if it is in the profile, however little it holds. -/
theorem isSome_lookup_setting (p : Profile) {f : String × Option Value} (hf : f ∈ p.settings) :
    ((settledEntries (setFields p.settings)).lookup f.1).isSome = f.2.isSome := by
  have hnames : ((setFields p.settings).map (·.1)).Nodup :=
    p.names_settings.sublist (names_setFields_sublist p.settings)
  rw [lookup_settledEntries hnames, lookup_setFields p.names_settings hf, Option.isSome_map]

/-! Of a setting in which every field that can be left out has its default, only the others are
written, and a table of only these is read as that setting. -/

theorem Wireless.codec_default (m : Mode) :
    Wireless.toValue { mode := m } = .table [("mode", .text m.name)] ∧
    Wireless.ofValue? (.table [("mode", .text m.name)]) = some { mode := m } := by
  cases m <;> exact ⟨rfl, rfl⟩

theorem WirelessSecurity.codec_default (keyMgmt : String) :
    (ofKeyMgmt keyMgmt).toValue = .table [("key-mgmt", .text keyMgmt)] ∧
    ofValue? (.table [("key-mgmt", .text keyMgmt)]) = some (ofKeyMgmt keyMgmt) :=
  ⟨rfl, rfl⟩

theorem Authentication.codec_default :
    ({} : Authentication).toValue = .table [] ∧ ofValue? (.table []) = some {} :=
  ⟨rfl, rfl⟩

/-- **A profile is read back from its document**, whatever it holds. The document has just the
settings of the profile, those with nothing in them too. What a setting leaves out is what it is
taken for when it is missing, and flags are read back from their text, all thirty-two. -/
theorem parse_print (p : Profile) :
    parse p.print = .ok p ∧
    (∃ es, read? p.print = some es ∧
      ∀ f ∈ p.settings, (es.lookup f.1).isSome = f.2.isSome) ∧
    (∀ m, Wireless.toValue { mode := m } = .table [("mode", .text m.name)] ∧
      Wireless.ofValue? (.table [("mode", .text m.name)]) = some { mode := m }) ∧
    (∀ k, (WirelessSecurity.ofKeyMgmt k).toValue = .table [("key-mgmt", .text k)] ∧
      WirelessSecurity.ofValue? (.table [("key-mgmt", .text k)]) =
        some (WirelessSecurity.ofKeyMgmt k)) ∧
    (({} : Authentication).toValue = .table [] ∧ Authentication.ofValue? (.table []) = some {}) ∧
    (∀ f : Secret.Flags, Secret.Flags.ofText? f.text = some f) := by
  have hparse : parse? p.print = some p := by
    rw [parse?, p.read?_print]
    exact p.codes.read_eq
  refine ⟨by rw [parse, hparse], ?_, Wireless.codec_default, WirelessSecurity.codec_default,
    Authentication.codec_default, Secret.Flags.ofText?_text⟩
  exact ⟨_, p.read?_print, fun f hf => p.isSome_lookup_setting hf⟩

end ConnectionSecurity.Profile
