import ConnectionSecurity.Proofs.Credential.Contents
import ConnectionSecurity.Proofs.Method.ClientCert
import ConnectionSecurity.Proofs.Method.OpenKey

/-!
# A choice and the check of it

A file is looked at when it is listed and when it is chosen as a key, and it is checked later. Both
see the same octets, so they agree on what the file is (`agrees_of_check`): the chooser of the user
certificate is closed exactly if the check passes over that certificate, and there is a warning at
the choice exactly if the check has one (`choice_agrees`). But the check goes by the canonical path
and a look by the path as it was written. A path that is too long for the system, and leads to a
file all the same, passes the check while a look at it finds nothing (`long_path_disagrees`).
-/

namespace ConnectionSecurity

open Credential

variable {fs : FileSystem} {p : Path} {purpose : Purpose} {password : Option Secret.Control}
  {file : Accepted} {content : Bytes} {contents : Contents}

/-! ## Looking at a file -/

theorem FileSystem.fileSize?_of_read (h : fs.read p = .ok content) :
    fs.fileSize? p = some content.length := by
  obtain ⟨node, hnode, hcontent⟩ := Except.bind_eq_ok.1 h
  unfold fileSize?
  rw [hnode]
  cases node with
  | file found => cases hcontent; rfl
  | directory => cases hcontent
  | link target => cases hcontent

namespace Credential

/-- A path that is not too long for the system. -/
def IsShort (p : Path) : Prop := Bytes.sizeOfText p < FileSystem.pathLimit

instance (p : Path) : Decidable (IsShort p) := Nat.decLt _ _

/-- What may be listed is what suits the purpose. -/
theorem mayHold_iff : mayHold purpose contents = true ↔ mismatch? purpose contents = none := by
  obtain ⟨format, certificate, privateKey, encrypted⟩ := contents
  cases purpose with
  | privateKey => cases privateKey <;> simp [mayHold, mismatch?]
  | ca | clientCert => cases format <;> cases certificate <;> simp [mayHold, mismatch?]

/-- A look at a file that passed sees what the check has seen. -/
theorem look?_of_check (hfs : fs.Tidy) (hshort : IsShort p)
    (h : check fs (some p) purpose password = .ok (some file)) :
    ∃ content contents, fs.read file.path = .ok content ∧ fs.read p = .ok content ∧
      look? fs p = some contents ∧ mismatch? purpose contents = none ∧
      file.format = contents.format ∧ file.encrypted = contents.encrypted := by
  obtain ⟨q, hq, hfile, -⟩ := check_eq_ok_some.1 h
  obtain ⟨rfl, -⟩ := chosen?_some_eq_some.1 hq
  obtain ⟨data, contents, hopen, hjudge, hformat, hencrypted⟩ := checkFile_eq_ok.1 hfile
  obtain ⟨content, hread, rfl⟩ := read_of_open? hopen
  obtain ⟨hseen, hsuits, -⟩ := judge_eq_ok.1 hjudge
  have hsame := hfs.read_of_canonicalPath (open?_eq_ok.1 hopen).1
    (Nat.not_le.2 hshort) hread
  refine ⟨content, contents, hread, hsame, ?_, hsuits, hformat, hencrypted⟩
  rw [look?, readStart, hsame]
  exact hseen

/-- What is said of a path without the check is what the check of the path has found. -/
structure Agrees (fs : FileSystem) (p : Path) (purpose : Purpose) (file : Accepted) : Prop where
  /-- The file is listed, unless its extension or its size forbids it. -/
  listed : ∃ content, fs.read file.path = .ok content ∧ (isListed fs p purpose = true ↔
    IsShort p ∧ hasExtension p (extensions purpose) = true ∧ sizeNeeded ≤ content.length)
  format : purpose = .privateKey → keyFormat? fs p = if IsShort p then some file.format else none
  encrypted : purpose = .privateKey →
    holdsEncryptedKey fs p = if IsShort p then file.encrypted else false

/-- Listing a file and looking at a key agree with the check, by a path that is not too long. -/
theorem agrees_of_check (hfs : fs.Tidy)
    (h : check fs (some p) purpose password = .ok (some file)) : Agrees fs p purpose file := by
  by_cases hshort : IsShort p
  · obtain ⟨content, contents, hread, hsame, hlook, hsuits, hformat, hencrypted⟩ :=
      look?_of_check hfs hshort h
    have hkey (hpurpose : purpose = .privateKey) : contents.privateKey = true := by
      simpa [hpurpose, mismatch?] using hsuits
    refine ⟨⟨content, hread, ?_⟩, fun hpurpose => ?_, fun hpurpose => ?_⟩
    · simp [isListed, FileSystem.fileSize?_of_read hsame, hlook, mayHold_iff.2 hsuits, hshort]
    · simp [keyFormat?, hlook, Option.filter, hkey hpurpose, hshort, hformat]
    · simp [holdsEncryptedKey, hlook, hkey hpurpose, hshort, hencrypted]
  · have hlook : look? fs p = none := Method.Tls.look?_of_long (Nat.not_lt.1 hshort)
    obtain ⟨q, -, hfile, -⟩ := check_eq_ok_some.1 h
    obtain ⟨data, contents, hopen, -⟩ := checkFile_eq_ok.1 hfile
    obtain ⟨content, hread, -⟩ := read_of_open? hopen
    refine ⟨⟨content, hread, ?_⟩, fun _ => ?_, fun _ => ?_⟩
    · simp [isListed, hlook, hshort]
    · simp [keyFormat?, hlook, hshort]
    · simp [holdsEncryptedKey, hlook, hshort]

/-- A container is always an encrypted key. -/
theorem encrypted_of_container (h : check fs (some p) purpose password = .ok (some file))
    (hformat : file.format = .pkcs12) : file.encrypted = true := by
  obtain ⟨q, -, hfile, -⟩ := check_eq_ok_some.1 h
  obtain ⟨data, contents, -, hjudge, hsame, hencrypted⟩ := checkFile_eq_ok.1 hfile
  obtain ⟨hseen, -⟩ := judge_eq_ok.1 hjudge
  rw [hencrypted, (Contents.coherent_of_recognise? hseen).container (hsame ▸ hformat)]
  rfl

end Credential

namespace Method.Tls

open AuthMethod (tls)

variable {m : Tls} {report : Report} {touches : List Touch}

/-! ## The key stays chosen -/

theorem keeps_key_touch (m : Tls) {t : Touch} (h : t.choosesKey = false) :
    ∃ m' : Tls, t.on (tls m) = tls m' ∧ m'.privateKey = m.privateKey ∧
      m'.clientCertOpen = m.clientCertOpen := by
  cases t with
  | loadSecrets a => exact ⟨_, rfl, rfl, rfl⟩
  | edit fs session e =>
      cases e with
      | clientCert path =>
          refine ⟨_, rfl, ?_⟩
          show (m.chooseClientCert path).privateKey = _ ∧ (m.chooseClientCert path).clientCertOpen = _
          unfold chooseClientCert
          split <;> exact ⟨rfl, rfl⟩
      | privateKey path => cases h
      | _ => exact ⟨_, rfl, rfl, rfl⟩

/-- Until another key is chosen, the chosen one stays and the chooser of the user certificate stays
open or closed. -/
theorem keeps_key (m : Tls) (h : touches.any Touch.choosesKey = false) :
    ∃ m' : Tls, touches.foldl Touch.on (tls m) = tls m' ∧ m'.privateKey = m.privateKey ∧
      m'.clientCertOpen = m.clientCertOpen := by
  induction touches generalizing m with
  | nil => exact ⟨m, rfl, rfl, rfl⟩
  | cons t touches ih =>
      rw [List.any_cons, Bool.or_eq_false_iff] at h
      obtain ⟨m', htouch, hkey, hopen⟩ := keeps_key_touch m h.1
      obtain ⟨m'', hrun, hkey', hopen'⟩ := ih m' h.2
      exact ⟨m'', by rw [List.foldl_cons, htouch, hrun], hkey'.trans hkey, hopen'.trans hopen⟩

/-! ## What validating passes over -/

/-- Validating passes over the user certificate: any other would do as well, or none. -/
def SkipsCert (m : Tls) (fs : FileSystem) : Prop :=
  ∀ cert, ({ m with clientCert := cert } : Tls).validate fs = m.validate fs

theorem skipsCert_iff (h : m.validate fs = .ok report)
    (hkey : check fs m.privateKey .privateKey (some m.keyPassword) = .ok (some file)) :
    m.SkipsCert fs ↔ file.format = .pkcs12 := by
  obtain ⟨hidentity, caReport, key, hca, hfound, -, hreport⟩ := validate_eq_ok.1 h
  obtain rfl : file = key := by simpa using hkey.symm.trans hfound
  constructor
  · intro hskips
    by_contra hformat
    -- Without any certificate it would be missed.
    obtain ⟨-, -, key, -, hfound, hneeded, -⟩ := validate_eq_ok.1 ((hskips none).trans h)
    obtain rfl : file = key := by simpa using hkey.symm.trans hfound
    obtain ⟨cert, hcert⟩ := hneeded hformat
    cases hcert
  · intro hformat cert
    rw [h]
    exact validate_eq_ok.2 ⟨hidentity, caReport, file, hca, hkey, absurd hformat, hreport⟩

/-- There is a warning of the key exactly if anybody can open it. -/
theorem exists_warning_iff (h : m.validate fs = .ok report)
    (hkey : check fs m.privateKey .privateKey (some m.keyPassword) = .ok (some file)) :
    (∃ q, .unencryptedPrivateKey q ∈ report) ↔ file.encrypted = false := by
  obtain ⟨q, hq, hfile, -⟩ := check_eq_ok_some.1 hkey
  rw [report_eq h, keyWarnings, eq_some_of_chosen? hq]
  simp only [hfile, List.mem_append, notMem_caWarnings, false_or]
  cases file.encrypted <;> simp

/-! ## Choosing -/

/-- Nothing changes but the key and the chooser of the user certificate. -/
theorem exists_choosePrivateKey (m : Tls) (fs : FileSystem) (path : Option Path) :
    ∃ cert isOpen, (m.choosePrivateKey fs path).2 =
      { m with privateKey := path, clientCert := cert, clientCertOpen := isOpen } := by
  unfold choosePrivateKey
  split
  · exact ⟨_, _, rfl⟩
  · exact ⟨_, _, rfl⟩

theorem clientCertOpen_choosePrivateKey (m : Tls) (fs : FileSystem) (path : Option Path) :
    (m.choosePrivateKey fs path).2.clientCertOpen = false ↔
      path.bind (keyFormat? fs) = some .pkcs12 := by
  unfold choosePrivateKey
  split
  next hformat => simp [hformat]
  next hformat => exact iff_of_false nofun hformat

/-- There is a warning at the choice of a key that passes exactly if anybody can open it. -/
theorem isSome_warning_iff (hagrees : Agrees fs p .privateKey file)
    (hcontainer : file.format = .pkcs12 → file.encrypted = true) :
    (m.choosePrivateKey fs (some p)).1.isSome = true ↔ IsShort p ∧ file.encrypted = false := by
  have hfound : (some p).bind (keyFormat? fs) = if IsShort p then some file.format else none :=
    hagrees.format rfl
  have hencrypted := hagrees.encrypted rfl
  unfold choosePrivateKey
  by_cases hshort : IsShort p
  · rw [if_pos hshort] at hfound hencrypted
    rw [hfound, and_iff_right hshort]
    split
    next hformat => simp [hcontainer (Option.some.inj hformat)]
    next => cases hopen : file.encrypted <;> simp [Option.filter, hencrypted, hopen]
  · rw [if_neg hshort] at hfound
    rw [hfound]
    simp [hshort]

/-- **What is seen at a choice is what is checked later**, unless the path is too long for the system.
A file that passes is listed and known for what it is. After a key was chosen, and whatever else was
done but to choose another one, a method that is fit has the chooser of the user certificate closed
exactly if validating passes over that certificate, and the choice came with a warning exactly if
the report has one. By a path that is too long nothing is listed, closed or warned of. -/
theorem choice_agrees (hfs : fs.Tidy) :
    (∀ p purpose password file, check fs (some p) purpose password = .ok (some file) →
      Agrees fs p purpose file) ∧
    ∀ (m : Tls) (path : Option Path) (touches : List Touch),
      touches.any Touch.choosesKey = false →
      ∃ m' : Tls, touches.foldl Touch.on (tls (m.choosePrivateKey fs path).2) = tls m' ∧
        ∀ report, m'.validate fs = .ok report → ∃ p, path = some p ∧
          (m'.clientCertOpen = false ↔ IsShort p ∧ m'.SkipsCert fs) ∧
          ((m.choosePrivateKey fs path).1.isSome = true ↔
            IsShort p ∧ ∃ q, .unencryptedPrivateKey q ∈ report) := by
  refine ⟨fun p purpose password file => agrees_of_check hfs, ?_⟩
  intro m path touches htouches
  obtain ⟨m', hrun, hkept, hopen⟩ := keeps_key (m.choosePrivateKey fs path).2 htouches
  refine ⟨m', hrun, fun report hreport => ?_⟩
  obtain ⟨-, -, file, -, hkey, -⟩ := validate_eq_ok.1 hreport
  obtain ⟨cert, isOpen, hchosen⟩ := exists_choosePrivateKey m fs path
  replace hkept : m'.privateKey = path := by rw [hkept, hchosen]
  obtain ⟨p, hp, -⟩ := check_eq_ok_some.1 hkey
  obtain rfl : path = some p := hkept.symm.trans (eq_some_of_chosen? hp)
  rw [hkept] at hkey
  have hagrees := agrees_of_check hfs hkey
  refine ⟨p, rfl, ?_, ?_⟩
  · rw [hopen, clientCertOpen_choosePrivateKey, skipsCert_iff hreport (hkept ▸ hkey),
      Option.bind_some, hagrees.format rfl]
    by_cases hshort : IsShort p <;> simp [hshort]
  · rw [isSome_warning_iff hagrees (encrypted_of_container hkey),
      exists_warning_iff hreport (hkept ▸ hkey)]

/-! ### A container, and a long path to it -/

def containerFile : FileSystem := withFile [0x30, 0x82, 0x00, 0x03, 0x02, 0x01, 0x03]

theorem canonicalPath_containerFile : containerFile.canonicalPath "/k" = .ok "/k" :=
  (open?_eq_ok.1 (open?_withFile _)).1

/-- The container passes by every path that leads to it. -/
theorem check_containerFile (hp : containerFile.canonicalPath p = .ok "/k")
    (hpassword : ∀ control, password = some control → control.isSatisfied = true) :
    check containerFile (some p) .privateKey password = .ok (some ⟨"/k", .pkcs12, true⟩) := by
  have hne : p ≠ "" := by
    rintro rfl
    cases hp
  have hopen : open? containerFile p = .ok ("/k", [0x30, 0x82, 0x00, 0x03, 0x02, 0x01, 0x03]) :=
    (open?_congr hp canonicalPath_containerFile).trans (open?_withFile _)
  have hjudge : judge .privateKey [0x30, 0x82, 0x00, 0x03, 0x02, 0x01, 0x03] = .ok .container := by
    decide
  exact check_eq_ok_some.2 ⟨p, chosen?_some_eq_some.2 ⟨rfl, hne⟩,
    checkFile_eq_ok.2 ⟨_, .container, hopen, hjudge, rfl, rfl⟩, hpassword⟩

/-- TLS with an identity, before any file is chosen. -/
def identified : Tls := { Tls.new .outer .notSaved with identity := "me" }

def withKey (p : Path) : Tls := (identified.choosePrivateKey containerFile (some p)).2

/-- Whatever was seen at the choice, the container is all that was missing. -/
theorem validate_withKey (hp : containerFile.canonicalPath p = .ok "/k") :
    (withKey p).validate containerFile = .ok [.missingCaCertificate .outer] ∧
      (withKey p).SkipsCert containerFile := by
  have hpassword : ∀ control, some identified.keyPassword = some control →
      control.isSatisfied = true := by
    rintro control ⟨⟩
    rfl
  have hkey := check_containerFile hp hpassword
  obtain ⟨cert, isOpen, hchosen⟩ := exists_choosePrivateKey identified containerFile (some p)
  have hfit : (withKey p).validate containerFile = .ok [.missingCaCertificate .outer] := by
    rw [withKey, hchosen]
    exact validate_eq_ok.2 ⟨rfl, _, _, rfl, hkey, absurd rfl, rfl⟩
  have hkept : check containerFile (withKey p).privateKey .privateKey
      (some (withKey p).keyPassword) = .ok (some ⟨"/k", .pkcs12, true⟩) := by
    rw [withKey, hchosen]
    exact hkey
  exact ⟨hfit, (skipsCert_iff hfit hkept).2 rfl⟩

/-- The container closes the chooser, and there is nothing to warn of. -/
theorem choice_agrees_container : containerFile.Tidy ∧
    (withKey "/k").validate containerFile = .ok [.missingCaCertificate .outer] ∧
    (withKey "/k").clientCertOpen = false ∧ (withKey "/k").SkipsCert containerFile ∧
    (identified.choosePrivateKey containerFile (some "/k")).1.isSome = false := by
  have hfs : containerFile.Tidy := tidy_withFile _
  obtain ⟨hfit, hskips⟩ := validate_withKey canonicalPath_containerFile
  obtain ⟨m, hm, hagrees⟩ := (choice_agrees hfs).2 identified (some "/k") [] rfl
  obtain rfl : withKey "/k" = m := AuthMethod.tls.inj hm
  obtain ⟨p, ⟨⟩, hclosed, hwarned⟩ := hagrees _ hfit
  have hshort : IsShort "/k" := by decide
  refine ⟨hfs, hfit, hclosed.2 ⟨hshort, hskips⟩, hskips, ?_⟩
  rw [Bool.eq_false_iff, Ne, hwarned]
  simp

/-- A path with steps in front of it that lead nowhere. -/
def dotted : Nat → Path → Path
  | 0, p => p
  | n + 1, p => "./" ++ dotted n p

theorem sizeOfText_dotted (n : Nat) (p : Path) :
    Bytes.sizeOfText (dotted n p) = 2 * n + Bytes.sizeOfText p := by
  induction n with
  | zero => simp [dotted]
  | succ n ih =>
      have hstep : Bytes.sizeOfText "./" = 2 := rfl
      rw [dotted, Bytes.sizeOfText, String.utf8ByteSize_append]
      show Bytes.sizeOfText "./" + Bytes.sizeOfText (dotted n p) = _
      omega

theorem isAbsolute_dotted (n : Nat) (h : p.isAbsolute = false) :
    (dotted n p).isAbsolute = false := by
  cases n with
  | zero => exact h
  | succ n =>
      rw [dotted, Path.isAbsolute, String.toList_append]
      rfl

theorem dotted_ne_empty (n : Nat) (h : p ≠ "") : dotted n p ≠ "" := by
  cases n with
  | zero => exact h
  | succ n => simp [dotted]

theorem walkFrom_dot (h : p.isAbsolute = false) (hne : p ≠ "") (mode : FileSystem.AtLink) :
    fs.walkFrom mode ("./" ++ p) = fs.walkFrom mode p := by
  have hpieces : Path.pieces ("./" ++ p) = "." :: p.pieces := by
    rw [Path.pieces, String.toList_append]
    rfl
  have habsolute : Path.isAbsolute ("./" ++ p) = false := isAbsolute_dotted 1 h
  have hempty : ("./" ++ p).isEmpty = p.isEmpty := by
    rw [Bool.eq_iff_iff, String.isEmpty_iff, String.isEmpty_iff]
    exact iff_of_false (dotted_ne_empty 1 hne) hne
  have hnul : ("./" ++ p).toList.contains '\x00' = p.toList.contains '\x00' := by
    rw [String.toList_append]
    simp
  have hidle : Path.isIdle "." = true := by decide
  unfold FileSystem.walkFrom
  rw [hpieces, habsolute, h, hempty, hnul, FileSystem.walk, if_pos hidle]

/-- Such steps lead nowhere. -/
theorem canonicalPath_dotted (n : Nat) (h : p.isAbsolute = false) (hne : p ≠ "") :
    fs.canonicalPath (dotted n p) = fs.canonicalPath p := by
  induction n with
  | zero => rfl
  | succ n ih =>
      rw [← ih, dotted, FileSystem.canonicalPath,
        walkFrom_dot (isAbsolute_dotted n h) (dotted_ne_empty n hne)]
      rfl

/-- The user works in the root directory. -/
theorem walkFrom_relative (mode : FileSystem.AtLink) :
    containerFile.walkFrom mode "k" = containerFile.walkFrom mode "/k" := by
  have hpieces : Path.pieces "/k" = "" :: Path.pieces "k" := by decide
  have hidle : Path.isIdle "" = true := by decide
  have hnul : "k".toList.contains '\x00' = "/k".toList.contains '\x00' := by decide
  have hempty : "k".isEmpty = "/k".isEmpty := by decide
  have hrelative : Path.isAbsolute "k" = false := by decide
  have habsolute : Path.isAbsolute "/k" = true := by decide
  unfold FileSystem.walkFrom
  rw [hpieces, FileSystem.walk, if_pos hidle, hnul, hempty, hrelative, habsolute]
  rfl

/-- The container passes by the long path, but neither a look at it nor the choice finds one: the
chooser of the user certificate stays open, though the certificate is passed over. -/
theorem long_path_disagrees :
    check containerFile (some (dotted 2050 "k")) .privateKey none =
      .ok (some ⟨"/k", .pkcs12, true⟩) ∧
    keyFormat? containerFile (dotted 2050 "k") = none ∧
    holdsEncryptedKey containerFile (dotted 2050 "k") = false ∧
    (withKey (dotted 2050 "k")).validate containerFile = .ok [.missingCaCertificate .outer] ∧
    (withKey (dotted 2050 "k")).SkipsCert containerFile ∧
    (withKey (dotted 2050 "k")).clientCertOpen = true := by
  have hp : containerFile.canonicalPath (dotted 2050 "k") = .ok "/k" := by
    rw [canonicalPath_dotted 2050 rfl (by decide), FileSystem.canonicalPath, walkFrom_relative]
    exact canonicalPath_containerFile
  have hlong : ¬IsShort (dotted 2050 "k") := by
    rw [IsShort, sizeOfText_dotted]
    decide
  have hcheck : check containerFile (some (dotted 2050 "k")) .privateKey none =
      .ok (some ⟨"/k", .pkcs12, true⟩) := check_containerFile hp (by simp)
  have hfs : containerFile.Tidy := tidy_withFile _
  have hagrees := agrees_of_check hfs hcheck
  have hformat := (hagrees.format rfl).trans (if_neg hlong)
  obtain ⟨hfit, hskips⟩ := validate_withKey hp
  refine ⟨hcheck, hformat, (hagrees.encrypted rfl).trans (if_neg hlong), hfit, hskips, ?_⟩
  rw [← Bool.not_eq_false, withKey, clientCertOpen_choosePrivateKey, Option.bind_some, hformat]
  simp

end Method.Tls

end ConnectionSecurity
