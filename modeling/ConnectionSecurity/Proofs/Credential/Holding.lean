import ConnectionSecurity.Profile.Setting
import ConnectionSecurity.Proofs.Credential.Check

/-!
# What an accepted file holds

A file that passes a check holds what its purpose needs: a certificate that can be read, or a key
(`holds_of_judge`). A reference to it has its canonical path and the format that its first bytes are
recognised by (`rel_of_check`).
-/

namespace ConnectionSecurity.Credential

variable {data : Bytes} {contents : Contents} {purpose : Purpose} {found decoded : Decoded}
  {block : Pem.Block} {blocks : List Pem.Block}

/-! ## What counts as a certificate and as a key -/

/-- The data open with a sequence of values. -/
def OpensTree (data : Bytes) : Prop :=
  ∃ value rest children, Asn1.definiteElement? data = some (value, rest) ∧
    value.sequence? = some children

/-- The data are a sequence of values of which the first is the version three. -/
def IsContainer (data : Bytes) : Prop :=
  ∃ value rest version more, Asn1.element? Asn1.depthLimit data = some (value, rest) ∧
    value.sequence? = some (version :: more) ∧ version.natural? = some 3

/-- The block is a certificate. -/
def CertificateBlock (block : Pem.Block) : Prop :=
  block.label = "CERTIFICATE" ∧ ∃ certificate, Certificate.read? block.content = some certificate

/-- The block is a key, which may be encrypted in its armour. -/
def KeyBlock (block : Pem.Block) : Prop :=
  block.label ∈ keyLabels ∧ (isSealed block = true ∨ OpensTree block.content)

/-- At least one certificate can be read of the data. -/
inductive HoldsCertificate (data : Bytes) : Format → Prop where
  | der (certificate : Certificate) (h : Certificate.read? data = some certificate) :
      HoldsCertificate data .der
  | pem (blocks : List Pem.Block) (block : Pem.Block) (hblocks : Pem.blocks? data = some blocks)
      (hmem : block ∈ blocks) (h : CertificateBlock block) : HoldsCertificate data .pem

/-- A private key can be decoded of the data, or they are a container. -/
inductive HoldsKey (data : Bytes) : Format → Prop where
  | der (contents : Contents) (hseen : Contents.recognise? data = some contents)
      (hkey : contents.privateKey = true) (h : OpensTree data) : HoldsKey data .der
  | pem (blocks : List Pem.Block) (block : Pem.Block) (hblocks : Pem.blocks? data = some blocks)
      (hmem : block ∈ blocks) (h : KeyBlock block) : HoldsKey data .pem
  | pkcs12 (h : IsContainer data) : HoldsKey data .pkcs12

/-- The data hold what the purpose needs. -/
def Holds : Purpose → Bytes → Format → Prop
  | .privateKey => HoldsKey
  | _ => HoldsCertificate

/-! ## Decoding -/

theorem exists_of_checkCertificate {u : Unit} (h : checkCertificate data = .ok u) :
    ∃ certificate, Certificate.read? data = some certificate := by
  unfold checkCertificate at h
  split at h
  next hread => exact Option.isSome_iff_exists.1 hread
  next => cases h

theorem opensTree_of_checkKey {u : Unit} (h : checkKey data = .ok u) : OpensTree data := by
  unfold checkKey at h
  split at h
  next value rest hvalue =>
    split at h
    next hsequence =>
      obtain ⟨children, hchildren⟩ := Option.isSome_iff_exists.1 hsequence
      exact ⟨value, rest, children, hvalue, hchildren⟩
    next => cases h
  next => cases h

theorem isContainer_of_checkContainer {u : Unit} (h : checkContainer data = .ok u) :
    IsContainer data := by
  unfold checkContainer at h
  split at h
  next => cases h
  next value rest hvalue =>
    split at h
    next => cases h
    next => cases h
    next version more hsequence =>
      split at h
      next => cases h
      next n hversion =>
        split at h
        next hthree => exact ⟨value, rest, version, more, hvalue, hsequence, hthree ▸ hversion⟩
        next => cases h

/-- A block adds to what was found only if it is a certificate or a key itself. -/
theorem of_decodeBlock (h : decodeBlock found block = .ok decoded) :
    (decoded.certificates ≠ found.certificates → CertificateBlock block) ∧
      (decoded.privateKey ≠ found.privateKey → KeyBlock block) := by
  unfold decodeBlock at h
  split at h
  next hlabel =>
    obtain ⟨u, hread, h⟩ := Except.bind_eq_ok.1 h
    obtain rfl := Except.pure_eq_ok.1 h
    exact ⟨fun _ => ⟨beq_iff_eq.1 hlabel, exists_of_checkCertificate hread⟩,
      fun hne => absurd rfl hne⟩
  next =>
    split at h
    next hkey =>
      have hkey := List.contains_iff_mem.1 hkey
      cases hsealed : isSealed block with
      | true =>
          obtain rfl : _ = decoded := by simpa [hsealed] using h
          exact ⟨fun hne => absurd rfl hne, fun _ => ⟨hkey, .inl hsealed⟩⟩
      | false =>
          rw [if_pos (by simp [hsealed])] at h
          obtain ⟨u, htree, h⟩ := Except.bind_eq_ok.1 h
          obtain rfl := Except.pure_eq_ok.1 h
          exact ⟨fun hne => absurd rfl hne, fun _ => ⟨hkey, .inr (opensTree_of_checkKey htree)⟩⟩
    next =>
      obtain rfl := Except.pure_eq_ok.1 h
      exact ⟨fun hne => absurd rfl hne, fun hne => absurd rfl hne⟩

/-- What was found in blocks, one of them is. -/
theorem exists_of_decodeBlocks (h : blocks.foldlM decodeBlock found = .ok decoded) :
    (decoded.certificates ≠ found.certificates → ∃ block ∈ blocks, CertificateBlock block) ∧
      (decoded.privateKey ≠ found.privateKey → ∃ block ∈ blocks, KeyBlock block) := by
  induction blocks generalizing found with
  | nil =>
      obtain rfl := Except.pure_eq_ok.1 h
      exact ⟨fun hne => absurd rfl hne, fun hne => absurd rfl hne⟩
  | cons block rest ih =>
      rw [List.foldlM_cons] at h
      obtain ⟨next, hblock, hrest⟩ := Except.bind_eq_ok.1 h
      obtain ⟨hcertificate, hkey⟩ := of_decodeBlock hblock
      obtain ⟨hcertificates, hkeys⟩ := ih hrest
      -- What the later blocks did not add, the first one did.
      constructor
      · intro hne
        by_cases hsame : decoded.certificates = next.certificates
        · exact ⟨block, List.mem_cons_self, hcertificate (hsame ▸ hne)⟩
        · obtain ⟨b, hb, hcert⟩ := hcertificates hsame
          exact ⟨b, List.mem_cons_of_mem block hb, hcert⟩
      · intro hne
        by_cases hsame : decoded.privateKey = next.privateKey
        · exact ⟨block, List.mem_cons_self, hkey (hsame ▸ hne)⟩
        · obtain ⟨b, hb, hcert⟩ := hkeys hsame
          exact ⟨b, List.mem_cons_of_mem block hb, hcert⟩

/-- A file in which certificates were decoded holds one, unless it is a container. -/
theorem holdsCertificate_of_decode (h : decode data contents = .ok decoded)
    (hcount : decoded.certificates ≠ 0) (hformat : contents.format ≠ .pkcs12) :
    HoldsCertificate data contents.format := by
  unfold decode at h
  cases hf : contents.format with
  | pkcs12 => exact absurd hf hformat
  | pem =>
      rw [hf] at h
      cases hblocks : Pem.blocks? data with
      | none => simp [hblocks] at h
      | some blocks =>
          simp only [hblocks] at h
          obtain ⟨block, hmem, hcertificate⟩ := (exists_of_decodeBlocks h).1 hcount
          exact .pem blocks block hblocks hmem hcertificate
  | der =>
      simp only [hf] at h
      split at h
      next =>
        obtain ⟨u, hread, -⟩ := Except.map_eq_ok.1 h
        obtain ⟨certificate, hcertificate⟩ := exists_of_checkCertificate hread
        exact .der certificate hcertificate
      next =>
        obtain ⟨u, -, rfl⟩ := Except.map_eq_ok.1 h
        exact absurd rfl hcount

/-- A file in which a key was decoded holds one. -/
theorem holdsKey_of_decode (hseen : Contents.recognise? data = some contents)
    (h : decode data contents = .ok decoded) (hkey : decoded.privateKey = true) :
    HoldsKey data contents.format := by
  unfold decode at h
  cases hf : contents.format with
  | pkcs12 =>
      simp only [hf] at h
      obtain ⟨u, hcontainer, -⟩ := Except.map_eq_ok.1 h
      exact .pkcs12 (isContainer_of_checkContainer hcontainer)
  | pem =>
      rw [hf] at h
      cases hblocks : Pem.blocks? data with
      | none => simp [hblocks] at h
      | some blocks =>
          simp only [hblocks] at h
          obtain ⟨block, hmem, hblock⟩ := (exists_of_decodeBlocks h).2 (by simp [hkey])
          exact .pem blocks block hblocks hmem hblock
  | der =>
      simp only [hf] at h
      split at h
      next =>
        obtain ⟨u, -, rfl⟩ := Except.map_eq_ok.1 h
        cases hkey
      next =>
        obtain ⟨u, htree, rfl⟩ := Except.map_eq_ok.1 h
        exact .der contents hseen hkey (opensTree_of_checkKey htree)

/-- **What is judged fit for a purpose holds what the purpose needs.** -/
theorem holds_of_judge (h : judge purpose data = .ok contents) :
    Holds purpose data contents.format := by
  obtain ⟨hseen, hsuits, decoded, hdecoded, hfull⟩ := judge_eq_ok.1 h
  cases purpose with
  | privateKey =>
      have hkey : decoded.privateKey = true := by simpa [shortfall?] using hfull
      exact holdsKey_of_decode hseen hdecoded hkey
  | ca | clientCert =>
      have hcount : decoded.certificates ≠ 0 := by simpa [shortfall?] using hfull
      -- A container counts as a certificate when it is decoded, but is refused before that.
      have hformat : contents.format ≠ .pkcs12 := by
        intro hpkcs12
        simp [mismatch?, hpkcs12] at hsuits
      exact holdsCertificate_of_decode hdecoded hcount hformat

/-! ## References -/

variable {fs : FileSystem} {path : Option Path} {password : Option Secret.Control} {q : Path}
  {file : Accepted}

/-- The reference leads to the file that was chosen for a purpose: it has the absolute canonical path
of a regular file and the format by which the first 8192 bytes are recognised, and these hold what
the purpose needs. -/
structure RefersTo (fs : FileSystem) (purpose : Purpose) (chosen : Path) (ref : Profile.FileRef) :
    Prop where
  canonical : fs.canonicalPath chosen = .ok ref.path
  absolute : ref.path.isAbsolute = true
  file : ∃ content contents, fs.nodeAt ref.path = .ok (.file content) ∧
    Contents.recognise? (content.take 8192) = some contents ∧ contents.format = ref.format ∧
    Holds purpose (content.take 8192) ref.format

theorem refersTo_of_checkFile (h : checkFile fs q purpose = .ok file) :
    RefersTo fs purpose q (.ofAccepted file) := by
  obtain ⟨data, contents, hopen, hjudge, hformat, -⟩ := checkFile_eq_ok.1 h
  obtain ⟨hcanonical, content, hnode, rfl⟩ := open?_eq_ok.1 hopen
  obtain ⟨hseen, -⟩ := judge_eq_ok.1 hjudge
  have hholds : Holds purpose (content.take 8192) file.format := by
    rw [hformat]
    exact holds_of_judge hjudge
  exact ⟨hcanonical, FileSystem.isAbsolute_canonicalPath hcanonical, content, contents, hnode,
    hseen, hformat.symm, hholds⟩

/-- What a check finds is referred to, and without a choice there is nothing to refer to. -/
theorem rel_of_check {found : Option Accepted} (h : check fs path purpose password = .ok found) :
    Option.Rel (RefersTo fs purpose) (chosen? path) (found.map .ofAccepted) := by
  rcases check_eq_ok.1 h with ⟨hnone, -, rfl⟩ | ⟨q, file, hq, hfile, rfl, -⟩
  · rw [hnone]
    exact .none
  · rw [hq]
    exact .some (refersTo_of_checkFile hfile)

end ConnectionSecurity.Credential
