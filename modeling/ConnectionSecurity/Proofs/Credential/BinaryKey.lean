import Mathlib
import ConnectionSecurity.Proofs.Asn1.Element
import ConnectionSecurity.Proofs.Credential.Check

/-!
# What passes as a binary key

A binary key is recognised by the octets behind the header of its outer sequence, and decoded as a
sequence of any values. So what passes is known as far as these octets go: it opens with a version
or with an algorithm (`opening_of_judge`). A key without a password opens with its version, and one
with a password is an algorithm and an octet string. But a public key opens with an algorithm too,
and where a sequence is empty the octets that were looked at stand behind it (`Imitates`). A
certificate opens with neither.
-/

namespace ConnectionSecurity.Credential

open Asn1

variable {data bs rest behind : Bytes} {contents : Contents} {children : List Element} {n k : Nat}

/-! ## What the octets promise -/

theorem recognise?_der (h : Contents.recognise? data = some contents)
    (hder : contents.format = .der) :
    ∃ bs, data = 0x30 :: 0x82 :: bs ∧ contents = .ofBinary data := by
  unfold Contents.recognise? at h
  split at h
  next bs => exact ⟨bs, rfl, (Option.some.inj h).symm⟩
  next =>
    split at h
    next found htext =>
      cases h
      simp only [Contents.ofText?] at htext
      split at htext
      · cases htext
        cases hder
      · cases htext
    next =>
      split at h
      · cases h
        cases hder
      · cases h

/-- A binary key shows a version or an algorithm. -/
theorem ofBinary_key (hder : (Contents.ofBinary data).format = .der)
    (hkey : (Contents.ofBinary data).privateKey = true) :
    (∃ v more, data.drop 4 = 0x02 :: 0x01 :: v :: more ∧
      Contents.ofBinary data = ⟨.der, false, true, false⟩) ∨
    ∃ more, data.drop 4 = 0x30 :: more ∧ Contents.namesAlgorithm (0x30 :: more) = true ∧
      Contents.ofBinary data = ⟨.der, false, true, true⟩ := by
  unfold Contents.ofBinary at hder hkey ⊢
  split at hkey
  next hcontainer =>
    rw [if_pos hcontainer] at hder
    cases hder
  next hcontainer =>
    rw [if_neg hcontainer]
    split at hkey
    next v more hdrop =>
      have hv : (v == 0 || v == 1) = true := hkey
      exact .inl ⟨v, more, hdrop, by rw [hv]⟩
    next more hdrop =>
      split at hkey
      next halgorithm => exact .inr ⟨more, hdrop, halgorithm, if_pos halgorithm⟩
      next => cases hkey
    next => cases hkey

/-- Where a length is read, the content stands behind the octets that are skipped over it. -/
theorem extent?_drop {x : UInt8} {extent : Extent} (h : extent? bs = some (extent, rest))
    (hlength : Contents.headerLength? (x :: bs) = some k) :
    k ≤ bs.length + 1 ∧ rest = (x :: bs).drop k := by
  cases bs with
  | nil => cases h
  | cons b bs =>
      rw [Contents.headerLength?] at hlength
      simp only [extent?, UInt8.lt_iff_toNat_lt] at h
      simp only [UInt8.le_iff_toNat_le] at hlength
      have h80 : (0x80 : UInt8).toNat = 128 := rfl
      have h84 : (0x84 : UInt8).toNat = 132 := rfl
      split at hlength
      next hshort =>
        obtain rfl := Option.some.inj hlength
        split at h
        · cases h
          simp
        next hlong =>
          obtain rfl : b = 0x80 := UInt8.toNat_inj.1 (by omega)
          cases h
          simp
      next hlong =>
        split at hlength
        next hfew =>
          obtain rfl := Option.some.inj hlength
          have hcount : (b &&& 0x7f).toNat = b.toNat - 128 := by
            have hmod : b.toNat &&& 127 = b.toNat % 128 := Nat.and_two_pow_sub_one_eq_mod b.toNat 7
            rw [UInt8.toNat_and, show (0x7f : UInt8).toNat = 127 from rfl, hmod]
            omega
          rw [if_neg (by omega)] at h
          split at h
          next heq =>
            obtain rfl : b = 0x80 := by simpa using heq
            omega
          split at h
          · cases h
          split at h
          next hfits =>
            cases h
            rw [hcount] at hfits ⊢
            have hlength : b.toNat - 128 ≤ bs.length := by
              simp at hfits
              omega
            constructor
            · simp only [List.length_cons]
              omega
            · rw [Nat.add_comm, List.drop_succ_cons, List.drop_succ_cons]
          · cases h
        · cases hlength

/-! ## The outer sequence -/

/-- The header that a binary file opens with. -/
theorem read?_twoOctets {hd : Header} (h : Header.read? (0x30 :: 0x82 :: bs) = some (hd, rest)) :
    ∃ n, hd = ⟨.sequence, .definite n⟩ ∧ rest = bs.drop 2 := by
  obtain ⟨extent, hextent, rfl⟩ := read?_sequence.1 h
  have htwo : extent? (0x82 :: bs) =
      if (bs.take 2).length == 2 && Bytes.toNat (bs.take 2) < UInt64.size then
        some (.definite (Bytes.toNat (bs.take 2)), bs.drop 2) else none := rfl
  rw [htwo] at hextent
  split at hextent
  · cases hextent
    exact ⟨_, rfl, rfl⟩
  · cases hextent

/-- A binary file that is decoded is a sequence of the values in its first octets. -/
theorem definiteElement?_twoOctets {value : Element}
    (h : definiteElement? (0x30 :: 0x82 :: bs) = some (value, behind)) :
    ∃ n fuel children, value = .node .sequence children ∧ behind = (bs.drop 2).drop n ∧
      values? (element? 49) fuel ((bs.drop 2).take n) = some children := by
  have hvalue : element? depthLimit (0x30 :: 0x82 :: bs) = some (value, behind) := by
    unfold definiteElement? at h
    split at h
    · exact h
    · cases h
  obtain ⟨extent, body, content, children, hextent, hcontent, hchildren, rfl⟩ :=
    element?_sequence.1 hvalue
  obtain ⟨n, hd, rfl⟩ := read?_twoOctets (read?_sequence.2 ⟨extent, hextent, rfl⟩)
  cases hd
  obtain ⟨-, rfl, rfl⟩ := take?_eq_some.1 (content?_definite.symm.trans hcontent)
  exact ⟨n, _, children, rfl, rfl, hchildren⟩

/-! ## What can be in it -/

/-- A version comes first. -/
def OpensWithVersion (children : List Element) : Prop :=
  ∃ version more, children = .leaf .integer version :: more

/-- An algorithm comes first. -/
def OpensWithAlgorithm (children : List Element) : Prop :=
  ∃ oid parameters more, children = .node .sequence (.leaf .objectId oid :: parameters) :: more

/-- A key that is encrypted: an algorithm and the octets that it made, nothing else. -/
def IsEncryptedKey (children : List Element) : Prop :=
  ∃ oid parameters octets, children =
    [.node .sequence (.leaf .objectId oid :: parameters), .leaf .octetString octets]

def IsPrivateKey (children : List Element) : Prop :=
  OpensWithVersion children ∨ IsEncryptedKey children

/-- A sequence that is no private key and still shows the octets of one. -/
inductive Imitates (children : List Element) (behind : Bytes) : Prop where
  /-- What follows the algorithm is not just an octet string: a public key has a bit string. -/
  | publicKey : OpensWithAlgorithm children → ¬ IsEncryptedKey children → Imitates children behind
  /-- All that was looked at stands behind the sequence. -/
  | empty : children = [] → Imitates children behind
  /-- The object identifier stands behind the sequence of the algorithm. -/
  | besides (oid : Bytes) (more : List Element) :
    children = .node .sequence [] :: .leaf .objectId oid :: more → Imitates children behind
  /-- The object identifier stands behind both sequences. -/
  | behind : children = [.node .sequence []] → behind.head? = some 0x06 → Imitates children behind

theorem not_opensWithVersion_node {inner more : List Element} :
    ¬ OpensWithVersion (.node .sequence inner :: more) := by
  rintro ⟨version, others, h⟩
  cases h

theorem isPrivateKey_or_imitates (h : OpensWithAlgorithm children) :
    IsPrivateKey children ∨ Imitates children behind := by
  by_cases hkey : IsEncryptedKey children
  · exact .inl (.inr hkey)
  · exact .inr (.publicKey h hkey)

theorem children_of_version {depth fuel : Nat} {v : UInt8}
    (h : values? (element? (depth + 1)) fuel ((0x02 :: 0x01 :: v :: bs).take n) = some children) :
    children = [] ∨ OpensWithVersion children := by
  match n with
  | 0 =>
    left
    simpa using h.symm
  | 1 | 2 =>
    obtain ⟨_, first, behind, more, hfirst, -⟩ := values?_cons h
    cases hfirst
  | n + 3 =>
    right
    obtain ⟨_, first, behind, more, hfirst, -, rfl⟩ := values?_cons h
    cases (element?_small v).symm.trans hfirst
    exact ⟨[v], more, rfl⟩

/-- Behind the header of what names an algorithm stands an object identifier, if the outer sequence
goes on so far. -/
theorem body_of_algorithm {extent : Extent} {body : Bytes}
    (halgorithm : Contents.namesAlgorithm (0x30 :: bs) = true)
    (hextent : extent? (bs.take n) = some (extent, body)) :
    ∃ k more, k ≤ n + 1 ∧ (0x30 :: bs).drop k = 0x06 :: more ∧
      body = (0x06 :: more).take (n + 1 - k) := by
  unfold Contents.namesAlgorithm at halgorithm
  split at halgorithm
  next k hk =>
    have hat : (0x30 :: bs)[k]? = some 0x06 := by simpa using halgorithm
    have hbehind : (0x30 :: bs).drop k = 0x06 :: (0x30 :: bs).drop (k + 1) :=
      (List.drop_eq_getElem?_toList_append).trans (by rw [hat]; rfl)
    -- The outer sequence is long enough for the octet that tells how long the header is.
    have hk' : Contents.headerLength? (0x30 :: bs.take n) = some k := by
      cases n with
      | zero => cases hextent
      | succ n =>
          cases bs with
          | nil => cases hk
          | cons b bs => exact hk
    obtain ⟨hle, rfl⟩ := extent?_drop hextent hk'
    refine ⟨k, _, ?_, hbehind, ?_⟩
    · have := List.length_take_le n bs
      omega
    · rw [← hbehind, ← List.drop_take, List.take_succ_cons]
  · cases halgorithm

theorem children_of_algorithm {depth fuel : Nat}
    (halgorithm : Contents.namesAlgorithm (0x30 :: bs) = true)
    (h : values? (element? (depth + 2)) fuel ((0x30 :: bs).take n) = some children) :
    children = [] ∨ ¬ OpensWithVersion children ∧
      (IsPrivateKey children ∨ Imitates children ((0x30 :: bs).drop n)) := by
  cases n with
  | zero =>
    left
    simpa using h.symm
  | succ n =>
    right
    obtain ⟨_, first, behind, more, hfirst, hmore, rfl⟩ := values?_cons h
    obtain ⟨extent, body, content, inner, hextent, hcontent, hinner, rfl⟩ :=
      element?_sequence.1 hfirst
    refine ⟨not_opensWithVersion_node, ?_⟩
    obtain ⟨k, tail, hk, hdrop, rfl⟩ := body_of_algorithm halgorithm hextent
    cases hleft : n + 1 - k with
    | zero =>
      -- The outer sequence ends here, and the object identifier is behind it.
      rw [hleft] at hcontent
      obtain ⟨rfl, rfl⟩ := content?_nil hcontent
      obtain rfl := Option.some.inj (values?_nil.symm.trans hinner)
      obtain rfl := Option.some.inj (values?_nil.symm.trans hmore)
      obtain rfl : k = n + 1 := by omega
      exact .inr (.behind rfl (by rw [hdrop]; rfl))
    | succ left =>
      rw [hleft, List.take_succ_cons] at hcontent
      obtain ⟨rfl, rfl⟩ | ⟨octets, rfl⟩ := content?_objectId hcontent
      · -- The sequence of the algorithm is empty.
        obtain rfl := Option.some.inj (values?_nil.symm.trans hinner)
        obtain ⟨_, second, _, others, hsecond, -, rfl⟩ := values?_cons hmore
        obtain ⟨oid, rfl⟩ := element?_objectId hsecond
        exact .inr (.besides oid others rfl)
      · obtain ⟨_, second, _, parameters, hsecond, -, rfl⟩ := values?_cons hinner
        obtain ⟨oid, rfl⟩ := element?_objectId hsecond
        exact isPrivateKey_or_imitates ⟨oid, parameters, more, rfl⟩

/-! ## A certificate opens otherwise -/

theorem sequence?_eq_some {content : Bytes} (h : Certificate.sequence? bs = some (content, rest)) :
    ∃ id n body, Header.read? bs = some (⟨id, .definite n⟩, body) ∧ id.number = 16 ∧
      content = body.take n := by
  simp only [Certificate.sequence?, Option.bind_eq_bind, Option.bind_eq_some_iff] at h
  obtain ⟨⟨id, inside, behind⟩, hdefinite, h⟩ := h
  obtain ⟨n, body, hread, htake⟩ := definite?_eq_some hdefinite
  obtain ⟨-, rfl, rfl⟩ := take?_eq_some.1 htake
  split at h
  next hnumber =>
    cases h
    exact ⟨id, n, body, hread, by simpa using hnumber, rfl⟩
  · cases h

/-- What is certified does not begin with an object identifier. -/
theorem certified?_eq_none {content : Bytes} (h : content = [] ∨ ∃ more, content = 0x06 :: more) :
    Certificate.certified? content = none := by
  -- There is no version in a context tag, so the number has to come at once.
  have hversion : ∀ found, Certificate.version? content = some found → found = (0, content) := by
    intro found hfound
    unfold Certificate.version? at hfound
    obtain rfl | ⟨more, rfl⟩ := h
    · exact (Option.some.inj hfound).symm
    · simp only [List.isEmpty_cons, Bool.false_eq_true, if_false, Option.bind_eq_bind,
        Option.bind_eq_some_iff] at hfound
      obtain ⟨⟨id, inside, behind⟩, hdefinite, hfound⟩ := hfound
      obtain ⟨n, body, hread, -⟩ := definite?_eq_some hdefinite
      obtain ⟨_, hid⟩ := read?_objectId hread
      cases hid
      exact (Option.some.inj hfound).symm
  have hnumber : Certificate.integer? content = none := by
    apply Option.eq_none_iff_forall_ne_some.2
    intro found hfound
    simp only [Certificate.integer?, Option.bind_eq_bind, Option.bind_eq_some_iff] at hfound
    obtain ⟨⟨hd, body⟩, hread, ⟨inside, behind⟩, -, hfound⟩ := hfound
    obtain rfl | ⟨more, rfl⟩ := h
    · cases hread
    · obtain ⟨_, rfl⟩ := read?_objectId hread
      cases hfound
  unfold Certificate.certified?
  cases hfound : Certificate.version? content with
  | none => rfl
  | some found =>
      obtain rfl := hversion found hfound
      simp [hnumber]

/-- Neither a version nor an algorithm begins what is certified. -/
theorem certificate_eq_none (h : (∃ v more, bs.drop 2 = 0x02 :: 0x01 :: v :: more) ∨
    ∃ more, bs.drop 2 = 0x30 :: more ∧ Contents.namesAlgorithm (0x30 :: more) = true) :
    Certificate.read? (0x30 :: 0x82 :: bs) = none := by
  apply Option.eq_none_iff_forall_ne_some.2
  intro c hc
  simp only [Certificate.read?, Option.bind_eq_bind, Option.bind_eq_some_iff] at hc
  obtain ⟨⟨inside, _⟩, hinside, ⟨certified, _⟩, hcertified, certificate, hread, -⟩ := hc
  obtain ⟨_, n, body, hheader, -, rfl⟩ := sequence?_eq_some hinside
  obtain ⟨_, -, rfl⟩ := read?_twoOctets hheader
  obtain ⟨id, m, body, hheader', hnumber, rfl⟩ := sequence?_eq_some hcertified
  obtain ⟨v, more, hdrop⟩ | ⟨more, hdrop, halgorithm⟩ := h
  · rw [hdrop] at hheader'
    cases n with
    | zero => cases hheader'
    | succ n =>
        -- The version is no sequence.
        obtain ⟨_, hid⟩ := identifier_of_read? hheader'
        cases hid
        cases hnumber
  · rw [hdrop] at hheader'
    cases n with
    | zero => cases hheader'
    | succ n =>
        obtain ⟨extent, hextent, -⟩ := read?_sequence.1 hheader'
        obtain ⟨k, tail, -, -, rfl⟩ := body_of_algorithm halgorithm hextent
        have hnone : Certificate.certified? (((0x06 :: tail).take (n + 1 - k)).take m) = none := by
          apply certified?_eq_none
          rw [List.take_take]
          cases min m (n + 1 - k) with
          | zero => exact .inl rfl
          | succ left => exact .inr ⟨tail.take left, rfl⟩
        rw [hnone] at hread
        cases hread

/-- What the first octets show does not depend on what follows them. -/
theorem namesAlgorithm_append (tail : Bytes) (h : Contents.namesAlgorithm bs = true) :
    Contents.namesAlgorithm (bs ++ tail) = true := by
  have hlength (n : Nat) (hn : Contents.headerLength? bs = some n) :
      Contents.headerLength? (bs ++ tail) = some n := by
    match bs with
    | [] => cases hn
    | [_] => cases hn
    | _ :: _ :: _ => exact hn
  unfold Contents.namesAlgorithm at h ⊢
  split at h
  next n hn =>
    rw [hlength n hn]
    have hat : bs[n]? = some 0x06 := by simpa using h
    obtain ⟨hlt, -⟩ := List.getElem?_eq_some_iff.1 hat
    simp [List.getElem?_append_left hlt, hat]
  · cases h

theorem drop_append {x : UInt8} {more : Bytes} (h : bs.drop 2 = x :: more) (tail : Bytes) :
    (bs ++ tail).drop 2 = x :: (more ++ tail) := by
  have hle : 2 ≤ bs.length := by
    have hlength := congrArg List.length h
    simp at hlength
    omega
  rw [List.drop_append_of_le_length hle, h, List.cons_append]

/-! ## The file -/

theorem definiteElement?_of_decode (hder : contents.format = .der)
    (hcertificate : contents.certificate = false) {decoded : Decoded}
    (h : decode data contents = .ok decoded) :
    ∃ value behind, definiteElement? data = some (value, behind) := by
  simp only [decode, hder, hcertificate, Bool.false_eq_true, if_false, Except.map_eq_ok] at h
  obtain ⟨_, hkey, -⟩ := h
  unfold checkKey at hkey
  split at hkey
  next value behind hvalue => exact ⟨value, behind, hvalue⟩
  · cases hkey

/-- **What a binary key that is judged fit holds.** -/
theorem opening_of_judge (h : judge .privateKey data = .ok contents)
    (hder : contents.format = .der) : ∃ children behind,
      definiteElement? data = some (.node .sequence children, behind) ∧
      (IsPrivateKey children ∨ Imitates children behind) ∧
      (children ≠ [] → (contents.encrypted = false ↔ OpensWithVersion children)) ∧
      ∀ tail, Certificate.read? (data ++ tail) = none := by
  obtain ⟨hseen, hsuits, decoded, hdecoded, -⟩ := judge_eq_ok.1 h
  obtain ⟨bs, rfl, rfl⟩ := recognise?_der hseen hder
  have hkey : (Contents.ofBinary (0x30 :: 0x82 :: bs)).privateKey = true := by
    simpa [mismatch?] using hsuits
  obtain ⟨v, more, hinside, hcontents⟩ | ⟨more, hinside, halgorithm, hcontents⟩ :=
    ofBinary_key hder hkey
  · obtain ⟨value, behind, hvalue⟩ := definiteElement?_of_decode hder (by rw [hcontents]) hdecoded
    obtain ⟨n, fuel, children, rfl, rfl, hchildren⟩ := definiteElement?_twoOctets hvalue
    refine ⟨children, _, hvalue, ?_, ?_, fun tail => ?_⟩
    · obtain hempty | hversion := children_of_version (hinside ▸ hchildren)
      · exact .inr (.empty hempty)
      · exact .inl (.inl hversion)
    · intro hne
      rw [hcontents]
      exact ⟨fun _ => (children_of_version (hinside ▸ hchildren)).resolve_left hne, fun _ => rfl⟩
    · exact certificate_eq_none (.inl ⟨v, more ++ tail, drop_append hinside tail⟩)
  · obtain ⟨value, behind, hvalue⟩ := definiteElement?_of_decode hder (by rw [hcontents]) hdecoded
    obtain ⟨n, fuel, children, rfl, rfl, hchildren⟩ := definiteElement?_twoOctets hvalue
    have hinside : bs.drop 2 = 0x30 :: more := hinside
    rw [hinside] at hchildren hvalue
    refine ⟨children, _, hvalue, ?_, ?_, fun tail => ?_⟩
    · obtain hempty | ⟨-, hkey⟩ := children_of_algorithm halgorithm hchildren
      · exact .inr (.empty hempty)
      · exact hkey
    · intro hne
      obtain ⟨hversion, -⟩ := (children_of_algorithm halgorithm hchildren).resolve_left hne
      rw [hcontents]
      constructor
      · intro hplain
        cases hplain
      · intro hopens
        exact absurd hopens hversion
    · exact certificate_eq_none (.inr ⟨more ++ tail, drop_append hinside tail,
        namesAlgorithm_append tail halgorithm⟩)

/-- **What an accepted binary key holds.** Its first octets are a sequence that opens with a version
or with an algorithm, never a certificate. It is a private key unless it imitates one: then
something else than an octet string follows the algorithm, or a sequence is empty. -/
theorem opening_of_check {fs : FileSystem} {path : Option Path}
    {password : Option Secret.Control} {file : Accepted}
    (h : check fs path .privateKey password = .ok (some file)) (hder : file.format = .der) :
    ∃ content children behind, fs.read file.path = .ok content ∧
      definiteElement? (content.take readLimit) = some (.node .sequence children, behind) ∧
      (IsPrivateKey children ∨ Imitates children behind) ∧
      (children ≠ [] → (file.encrypted = false ↔ OpensWithVersion children)) ∧
      Certificate.read? content = none := by
  obtain ⟨q, -, hfile, -⟩ := check_eq_ok_some.1 h
  obtain ⟨data, contents, hopen, hjudge, hformat, hencrypted⟩ := checkFile_eq_ok.1 hfile
  obtain ⟨content, hread, rfl⟩ := read_of_open? hopen
  obtain ⟨children, behind, hvalue, hkey, hversion, hcertificate⟩ :=
    opening_of_judge hjudge (hformat ▸ hder)
  have hwhole := hcertificate (content.drop readLimit)
  rw [List.take_append_drop] at hwhole
  exact ⟨content, children, behind, hread, hvalue, hkey, hencrypted ▸ hversion, hwhole⟩

/-! ### A key, and a public key -/

/-- A version and nothing else. -/
def plainKey : Bytes := [0x30, 0x82, 0x00, 0x03, 0x02, 0x01, 0x00]

theorem opening_of_check_plainKey :
    check (withFile plainKey) (some "/k") .privateKey none = .ok (some ⟨"/k", .der, false⟩) ∧
      ∃ content children behind, (withFile plainKey).read "/k" = .ok content ∧
        definiteElement? (content.take readLimit) = some (.node .sequence children, behind) ∧
        (IsPrivateKey children ∨ Imitates children behind) := by
  have hcheck : check (withFile plainKey) (some "/k") .privateKey none =
      .ok (some ⟨"/k", .der, false⟩) := by cbv
  obtain ⟨content, children, behind, hread, hvalue, hopening, -⟩ := opening_of_check hcheck rfl
  exact ⟨hcheck, content, children, behind, hread, hvalue, hopening⟩

/-- A public key: an algorithm, and a bit string of 246 octets. -/
def publicKey : Bytes :=
  [0x30, 0x82, 0x01, 0x00, 0x30, 0x05, 0x06, 0x03, 0x2a, 0x03, 0x04, 0x03, 0x81, 0xf6, 0x00] ++
    List.replicate 245 0x05

set_option maxRecDepth 1000 in
/-- A public key is accepted as a private key that needs a password. -/
theorem publicKey_is_accepted :
    check (withFile publicKey) (some "/k") .privateKey none = .ok (some ⟨"/k", .der, true⟩) ∧
      ∃ children, definiteElement? publicKey = some (.node .sequence children, []) ∧
        ¬ IsPrivateKey children := by
  refine ⟨by cbv, [.node .sequence [.leaf .objectId [0x2a, 0x03, 0x04]],
    .leaf ⟨.universal, false, 3⟩ (0x00 :: List.replicate 245 0x05)], by cbv, ?_⟩
  rintro (⟨version, more, h⟩ | ⟨oid, parameters, octets, h⟩)
  · cases h
  · cases h

end ConnectionSecurity.Credential
