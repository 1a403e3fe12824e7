import ConnectionSecurity.Proofs.Credential.BinaryKey
import ConnectionSecurity.Proofs.Credential.Contents

/-!
# Whole containers

A container is known by its first octets, but it is decoded as a whole. So one that is longer than
what is read of a file never passes, since a sequence that is cut off does not decode. A shorter one
passes as a key unless it is taken for a text file before: only a length in two octets makes sure
that it is not, and any other container passes exactly if no line that a certificate or a key begins
with stands in it (`accepts_container`).
-/

namespace ConnectionSecurity.Credential

open Asn1

variable {data bs rest body payload content length inner : Bytes} {extent : Extent} {e : Element}
  {fs : FileSystem} {p absolute : Path} {password : Option Secret.Control} {depth fuel : Nat}

/-! ## Containers that are whole -/

/-- All of a file is one sequence with a definite length, the values in it nest no deeper than is
allowed, and the first of them is the number three. The length takes one octet, or one and as many
as four that follow. -/
structure IsWhole (content : Bytes) : Prop where
  value : ∃ e, definiteElement? content = some (e, [])
  version : ∃ octets rest hd, content = 0x30 :: (octets ++ 0x02 :: 0x01 :: 0x03 :: rest) ∧
    octets.length ≤ 5 ∧ Header.read? content = some (hd, 0x02 :: 0x01 :: 0x03 :: rest)

theorem definiteElement?_eq_some : definiteElement? data = some (e, rest) ↔
    (∃ id n body, Header.read? data = some (⟨id, .definite n⟩, body)) ∧
      element? depthLimit data = some (e, rest) := by
  unfold definiteElement?
  split
  next id n body hread => simp [hread]
  next hno =>
    refine iff_of_false nofun ?_
    rintro ⟨⟨id, n, body, hread⟩, -⟩
    exact hno id n body hread

/-- Behind a first octet above 132 come five octets of the length at least. -/
theorem extent?_long {b : UInt8} (h : extent? (b :: bs) = some (extent, rest)) (hlong : ¬b ≤ 0x84) :
    ∃ count, 5 ≤ count ∧ count ≤ bs.length ∧ rest = bs.drop count := by
  have hb : 132 < b.toNat := Nat.lt_of_not_le fun hle => hlong (UInt8.le_iff_toNat_le.2 hle)
  have hcount : (b &&& 0x7f).toNat = b.toNat % 128 := by
    rw [UInt8.toNat_and]
    exact Nat.and_two_pow_sub_one_eq_mod b.toNat 7
  have hshort : ¬b < 0x80 := fun hlt => by
    have : b.toNat < 128 := UInt8.lt_iff_toNat_lt.1 hlt
    omega
  rw [extent?, if_neg hshort] at h
  split at h
  next hmark =>
    obtain rfl : b = 0x80 := by simpa using hmark
    exact absurd hb (by decide)
  split at h
  · cases h
  simp only [hcount] at h
  split at h
  next hfits =>
    cases h
    have hlt := b.toNat_lt
    have hle : b.toNat % 128 ≤ bs.length := by simpa using (Bool.and_eq_true_iff.1 hfits).1
    exact ⟨b.toNat % 128, by omega, hle, rfl⟩
  · cases h

/-- A length in few octets is one that is recognised. -/
theorem exists_headerLength? {x : UInt8} (h : extent? bs = some (extent, rest))
    (hfew : bs.length ≤ rest.length + 5) : ∃ k, Contents.headerLength? (x :: bs) = some k := by
  cases bs with
  | nil => cases h
  | cons b bs =>
      by_cases hshort : b ≤ 0x80
      · exact ⟨2, if_pos hshort⟩
      by_cases hknown : b ≤ 0x84
      · exact ⟨_, (if_neg hshort).trans (if_pos hknown)⟩
      -- More than four octets would follow.
      obtain ⟨count, hfive, hle, rfl⟩ := extent?_long h hknown
      rw [List.length_cons, List.length_drop] at hfew
      omega

/-- Its length is that of all that stands behind it, and that is read as values. -/
theorem IsWhole.header (h : IsWhole content) : ∃ octets rest children,
    content = 0x30 :: (octets ++ 0x02 :: 0x01 :: 0x03 :: rest) ∧ octets.length ≤ 5 ∧
      extent? (octets ++ 0x02 :: 0x01 :: 0x03 :: rest) =
        some (.definite (rest.length + 3), 0x02 :: 0x01 :: 0x03 :: rest) ∧
      values? (element? 49) (rest.length + 3) (0x02 :: 0x01 :: 0x03 :: rest) = some children := by
  obtain ⟨octets, rest, hd, rfl, hfew, hread⟩ := h.version
  obtain ⟨e, hvalue⟩ := h.value
  obtain ⟨⟨id, n, body, hdefinite⟩, helement⟩ := definiteElement?_eq_some.1 hvalue
  obtain ⟨rfl, rfl⟩ : hd = ⟨id, .definite n⟩ ∧ 0x02 :: 0x01 :: 0x03 :: rest = body := by
    simpa using hread.symm.trans hdefinite
  obtain ⟨extent, body, inside, children, hextent, hinside, hchildren, rfl⟩ :=
    element?_sequence.1 helement
  -- Both have read the same header, so the content is all that stands behind it.
  obtain ⟨_, hextent', hsame⟩ := read?_sequence.1 hdefinite
  cases hsame
  obtain ⟨rfl, rfl⟩ : extent = .definite n ∧ body = 0x02 :: 0x01 :: 0x03 :: rest := by
    simpa using hextent.symm.trans hextent'
  obtain ⟨hle, rfl, hbehind⟩ := take?_eq_some.1 (content?_definite.symm.trans hinside)
  have hge := List.drop_eq_nil_iff.1 hbehind.symm
  obtain rfl : n = rest.length + 3 := Nat.le_antisymm hle hge
  rw [List.take_of_length_le hge] at hchildren
  exact ⟨octets, rest, children, rfl, hfew, hextent, hchildren⟩

/-- What makes a container is recognised. -/
theorem isContainer_of_isWhole (h : IsWhole content) : Contents.isContainer content = true := by
  obtain ⟨octets, rest, children, rfl, hfew, hextent, -⟩ := h.header
  have hclose : (octets ++ 0x02 :: 0x01 :: 0x03 :: rest).length ≤
      (0x02 :: 0x01 :: 0x03 :: rest).length + 5 := by
    rw [List.length_append]
    omega
  obtain ⟨k, hk⟩ := exists_headerLength? (x := 0x30) hextent hclose
  obtain ⟨-, hdrop⟩ := extent?_drop hextent hk
  simp [Contents.isContainer, hk, ← hdrop]

/-- And it decodes, since the first of its values is the number three. -/
theorem checkContainer_of_isWhole (h : IsWhole content) : checkContainer content = .ok () := by
  obtain ⟨octets, rest, children, rfl, -, hextent, hchildren⟩ := h.header
  have hinside := content?_whole .sequence (0x02 :: 0x01 :: 0x03 :: rest)
  have helement : element? depthLimit _ = some (.node .sequence children, []) :=
    element?_sequence.2 ⟨_, _, _, children, hextent, hinside, hchildren, rfl⟩
  obtain ⟨_, first, behind, more, hfirst, -, rfl⟩ := values?_cons hchildren
  obtain rfl : first = .leaf .integer [0x03] :=
    congrArg Prod.fst (Option.some.inj (hfirst.symm.trans (element?_small 0x03)))
  have hsequence : (Element.node .sequence (.leaf .integer [0x03] :: more)).sequence? =
      some (.leaf .integer [0x03] :: more) := rfl
  have hthree : (Element.leaf .integer [0x03]).natural? = some 3 := by decide
  simp only [checkContainer, helement, hsequence, hthree, if_true]

/-! ## Containers that are cut off -/

/-- A sequence that is cut off is none. -/
theorem element?_of_cut {n : Nat} (h : extent? bs = some (.definite n, body))
    (hcut : body.length < n) : element? (depth + 1) (0x30 :: bs) = none := by
  refine Option.eq_none_iff_forall_ne_some.2 ?_
  rintro ⟨e, rest⟩ helement
  obtain ⟨extent, found, inside, children, hextent, hinside, -⟩ := element?_sequence.1 helement
  obtain ⟨rfl, rfl⟩ : extent = .definite n ∧ found = body := by
    simpa using hextent.symm.trans h
  obtain ⟨hle, -⟩ := take?_eq_some.1 (content?_definite.symm.trans hinside)
  exact absurd hcut (Nat.not_lt.2 hle)

/-- A container that is cut off behind its header does not decode. -/
theorem checkContainer_of_cut {k : Nat} (h : IsWhole content) (hk : 6 ≤ k)
    (hcut : k < content.length) : checkContainer (content.take k) = .error .container := by
  obtain ⟨octets, rest, children, rfl, hfew, hextent, -⟩ := h.header
  obtain ⟨k, rfl⟩ := Nat.exists_eq_add_of_le' hk
  have htake : (0x30 :: (octets ++ 0x02 :: 0x01 :: 0x03 :: rest)).take (k + 6) =
      0x30 :: (octets ++ (0x02 :: 0x01 :: 0x03 :: rest).take (k + 5 - octets.length)) := by
    rw [List.take_succ_cons, List.take_append, List.take_of_length_le (by omega)]
  have hshort : ((0x02 :: 0x01 :: 0x03 :: rest).take (k + 5 - octets.length)).length <
      rest.length + 3 := by
    simp only [List.length_cons, List.length_append] at hcut
    simp only [List.length_take, List.length_cons]
    omega
  -- The length is still there, and says that there should be more.
  have hbroken : element? depthLimit _ = none := element?_of_cut (extent?_append hextent) hshort
  rw [htake, checkContainer, hbroken]

/-! ## What they pass as -/

/-- What is taken for a container is a key exactly if it decodes. -/
theorem judge_of_recognise? (h : Contents.recognise? data = some .container) :
    judge .privateKey data =
      ((checkContainer data).map fun _ => .container).mapError DecodeError.message := by
  have hsuits : mismatch? .privateKey .container = none := rfl
  have hdecode : decode data .container =
      (checkContainer data).map fun _ => { certificates := 1, privateKey := true } := rfl
  unfold judge
  simp only [h, hsuits, hdecode]
  cases checkContainer data with
  | error e => rfl
  | ok u => rfl

namespace Contents

/-- A container is taken for one unless it is taken for a text file. -/
theorem recognise?_eq_container_iff (h : isContainer data = true) :
    recognise? data = some container ↔
      [0x30, 0x82] <+: data ∨ ∀ mark ∈ beginMarks, mentions data mark = false := by
  by_cases hopens : [0x30, 0x82] <+: data
  · rw [recognise?_of_opens hopens, ofBinary_eq, if_pos h]
    exact iff_of_true rfl (.inl hopens)
  · rw [recognise?_of_not_opens hopens, if_pos h, or_iff_right hopens, ← ofText?_eq_none]
    cases htext : ofText? data with
    | none => exact iff_of_true rfl rfl
    | some found =>
        refine iff_of_false (fun hfound => ?_) nofun
        obtain rfl : found = container := Option.some.inj hfound
        cases format_of_ofText? htext

end Contents

/-- A longer one is refused for what is missing, if its first two octets say that it is binary. -/
theorem judge_of_cut (h : IsWhole content) (hopens : [0x30, 0x82] <+: content)
    (hlong : readLimit < content.length) :
    judge .privateKey (content.take readLimit) = .error DecodeError.container.message := by
  have hstart : [0x30, 0x82] <+: content.take readLimit :=
    List.prefix_take_iff.2 ⟨hopens, by decide⟩
  have hcontainer : Contents.isContainer (content.take readLimit) = true :=
    (Contents.isContainer_take (by decide)).trans (isContainer_of_isWhole h)
  rw [judge_of_recognise? ((Contents.recognise?_eq_container_iff hcontainer).2 (.inl hstart)),
    checkContainer_of_cut h (by decide) hlong]
  rfl

/-- **Which containers pass.** A file that is all a container passes as an encrypted key exactly if
it is no longer than what is read of a file, and its length stands in two octets or nothing in it
looks like text armour. -/
theorem accepts_container (hcanonical : fs.canonicalPath p = .ok absolute)
    (hfile : fs.nodeAt absolute = .ok (.file content)) (hwhole : IsWhole content)
    (hpassword : ∀ control, password = some control → control.isSatisfied = true) :
    check fs (some p) .privateKey password = .ok (some ⟨absolute, .pkcs12, true⟩) ↔
      content.length ≤ readLimit ∧
        ([0x30, 0x82] <+: content ∨
          ∀ mark ∈ Contents.beginMarks, Contents.mentions content mark = false) := by
  rw [← Contents.recognise?_eq_container_iff (isContainer_of_isWhole hwhole)]
  have hopen : open? fs p = .ok (absolute, content.take readLimit) :=
    open?_eq_ok.2 ⟨hcanonical, content, hfile, rfl⟩
  constructor
  · intro hcheck
    obtain ⟨q, hq, hfound, -⟩ := check_eq_ok_some.1 hcheck
    obtain ⟨rfl, -⟩ := chosen?_some_eq_some.1 hq
    obtain ⟨data, contents, hdata, hjudge, hformat, -⟩ := checkFile_eq_ok.1 hfound
    obtain rfl : content.take readLimit = data := by simpa using hopen.symm.trans hdata
    have hknown : Contents.recognise? (content.take readLimit) = some .container := by
      obtain ⟨hseen, -⟩ := judge_eq_ok.1 hjudge
      rw [hseen, (Contents.coherent_of_recognise? hseen).container hformat.symm]
    have hsize : content.length ≤ readLimit := by
      by_contra hlong
      have hcut := checkContainer_of_cut hwhole (by decide) (Nat.lt_of_not_le hlong)
      rw [judge_of_recognise? hknown, hcut] at hjudge
      cases hjudge
    rw [List.take_of_length_le hsize] at hknown
    exact ⟨hsize, hknown⟩
  · rintro ⟨hsize, hknown⟩
    rw [List.take_of_length_le hsize] at hopen
    have hjudge := judge_of_recognise? hknown
    rw [checkContainer_of_isWhole hwhole] at hjudge
    have hne : p ≠ "" := by
      rintro rfl
      cases hcanonical
    have hchosen : chosen? (some p) = some p := chosen?_some_eq_some.2 ⟨rfl, hne⟩
    exact check_eq_ok_some.2
      ⟨p, hchosen, checkFile_eq_ok.2 ⟨content, .container, hopen, hjudge, rfl, rfl⟩, hpassword⟩

/-! ### Containers around some octets -/

theorem element?_octetString (h : extent? bs = some (.definite payload.length, payload)) :
    element? (depth + 1) (0x04 :: bs) = some (.leaf .octetString payload, []) := by
  have hid : identifier? (0x04 :: bs) = some (.octetString, bs) := rfl
  have hread : Header.read? (0x04 :: bs) =
      some (⟨.octetString, .definite payload.length⟩, payload) := by
    simp [Header.read?, hid, h, Identifier.octetString]
  exact element?_eq_some.2 ⟨_, _, payload, hread, content?_whole _ payload, rfl⟩

theorem values?_of_read {read : Bytes → Option (Element × Bytes)} {x : UInt8}
    (h : read (x :: bs) = some (e, rest)) :
    values? read (fuel + 1) (x :: bs) = (values? read fuel rest).map (e :: ·) := by
  simp only [values?, h]

/-- The number three and some octets make a whole container. -/
theorem isWhole_octets
    (hinner : extent? inner = some (.definite payload.length, payload))
    (hlength : extent? (length ++ 0x02 :: 0x01 :: 0x03 :: 0x04 :: inner) =
      some (.definite (inner.length + 4), 0x02 :: 0x01 :: 0x03 :: 0x04 :: inner))
    (hfew : length.length ≤ 5) :
    IsWhole (0x30 :: (length ++ 0x02 :: 0x01 :: 0x03 :: 0x04 :: inner)) where
  version := ⟨length, 0x04 :: inner, _, rfl, hfew, read?_sequence.2 ⟨_, hlength, rfl⟩⟩
  value := by
    have hvalues : values? (element? 49) (inner.length + 4)
        (0x02 :: 0x01 :: 0x03 :: 0x04 :: inner) =
          some [.leaf .integer [0x03], .leaf .octetString payload] := by
      rw [values?_of_read (element?_small 0x03), values?_of_read (element?_octetString hinner),
        values?_nil]
      rfl
    have hinside := content?_whole .sequence (0x02 :: 0x01 :: 0x03 :: 0x04 :: inner)
    have helement := element?_sequence.2 ⟨_, _, _, _, hlength, hinside, hvalues, rfl⟩
    have hread := read?_sequence.2 ⟨_, hlength, rfl⟩
    exact ⟨_, definiteElement?_eq_some.2 ⟨⟨_, _, _, hread⟩, helement⟩⟩

def smallContainer : Bytes := 0x30 :: ([0x06] ++ 0x02 :: 0x01 :: 0x03 :: 0x04 :: [0x01, 0x00])

theorem accepts_container_smallContainer : IsWhole smallContainer ∧
    check (withFile smallContainer) (some "/k") .privateKey (some ⟨"pw", .stored, false⟩) =
      .ok (some ⟨"/k", .pkcs12, true⟩) := by
  have hinner : extent? [0x01, 0x00] = some (.definite [(0x00 : UInt8)].length, [0x00]) := rfl
  have hwhole : IsWhole smallContainer := isWhole_octets hinner (by decide) (by decide)
  have hcanonical : (withFile smallContainer).canonicalPath "/k" = .ok "/k" :=
    (open?_eq_ok.1 (open?_withFile smallContainer)).1
  have hunmarked : ∀ mark ∈ Contents.beginMarks, Contents.mentions smallContainer mark = false := by
    decide
  have hpassword : ∀ control, some (⟨"pw", .stored, false⟩ : Secret.Control) = some control →
      control.isSatisfied = true := by
    rintro control ⟨⟩
    decide
  have hsize : smallContainer.length ≤ readLimit := by decide
  exact ⟨hwhole, (accepts_container hcanonical (nodeAt_withFile _) hwhole hpassword).2
    ⟨hsize, .inr hunmarked⟩⟩

/-- A container that holds the line of a certificate. -/
def markedContainer : Bytes :=
  0x30 :: ([0x20] ++ 0x02 :: 0x01 :: 0x03 :: 0x04 :: 0x1b :: Bytes.ofText Contents.certificateMark)

theorem isWhole_markedContainer : IsWhole markedContainer := by
  have hinner : extent? (0x1b :: Bytes.ofText Contents.certificateMark) = some
      (.definite (Bytes.ofText Contents.certificateMark).length,
        Bytes.ofText Contents.certificateMark) := by decide
  have hfew : [(0x20 : UInt8)].length ≤ 5 := by decide
  exact isWhole_octets hinner (by decide) hfew

/-- A container that is longer than what is read of one, around octets of any kind. -/
def longContainer (payload : Bytes) : Bytes :=
  0x30 :: ([0x82, 0x20, 0x01] ++ 0x02 :: 0x01 :: 0x03 :: 0x04 :: 0x82 :: 0x1f :: 0xfa :: payload)

theorem isWhole_longContainer (h : payload.length = 8186) : IsWhole (longContainer payload) := by
  have hinner : extent? (0x82 :: 0x1f :: 0xfa :: payload) =
      some (.definite payload.length, payload) := by
    rw [h]
    rfl
  have hsize : (0x82 :: 0x1f :: 0xfa :: payload).length + 4 = 0x2001 := by
    rw [List.length_cons, List.length_cons, List.length_cons, h]
  have hfew : [(0x82 : UInt8), 0x20, 0x01].length ≤ 5 := by decide
  refine isWhole_octets hinner ?_ hfew
  rw [hsize]
  rfl

theorem length_longContainer (h : payload.length = 8186) :
    readLimit < (longContainer payload).length := by
  simp [longContainer, readLimit, h]

/-- So not every whole container passes: neither one that has a mark in it and its length in one
octet, nor one that is not read to its end. -/
theorem container_is_refused :
    (IsWhole markedContainer ∧ check (withFile markedContainer) (some "/k") .privateKey none =
      .error (.invalidFormat .privateKey "/k" "no private key found")) ∧
    IsWhole (longContainer (.replicate 8186 0)) ∧
      check (withFile (longContainer (.replicate 8186 0))) (some "/k") .privateKey none =
        .error (.invalidFormat .privateKey "/k" DecodeError.container.message) := by
  have hmarked : judge .privateKey (markedContainer.take readLimit) =
      .error "no private key found" := by decide +kernel
  have hsize : (List.replicate 8186 (0 : UInt8)).length = 8186 := List.length_replicate
  have hlong := judge_of_cut (isWhole_longContainer hsize) ⟨_, rfl⟩ (length_longContainer hsize)
  exact ⟨⟨isWhole_markedContainer, check_withFile_error hmarked⟩, isWhole_longContainer hsize,
    check_withFile_error hlong⟩

end ConnectionSecurity.Credential
