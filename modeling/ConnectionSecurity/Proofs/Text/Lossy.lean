import ConnectionSecurity.Proofs.Pem

/-!
# Bytes read as a text that they may not be

Bytes are read as a text even where they are none: what is broken of a character is replaced by the
replacement character (`lossy`). An octet of ASCII is a character by itself wherever it stands, so
the reading neither loses one nor makes one up, and a run of ASCII characters occurs in the text
exactly if its octets occur in the bytes (`infix_lossy_iff`).
-/

namespace ConnectionSecurity.Bytes

variable {b rest piece : Bytes} {x : UInt8} {c : Char} {t : List Char}

/-! ## The reading -/

/-- The character that bytes begin with. -/
def character? (b : Bytes) : Option Char := b.toByteArray.utf8DecodeChar? 0

/-- An octet that a character goes on with. -/
def isTail (x : UInt8) : Bool := 0x80 ≤ x && x ≤ 0xbf

/-- Whether a character of three or four octets can begin with these two. -/
def beginLong (lead next : UInt8) : Bool :=
  if lead == 0xe0 then 0xa0 ≤ next && next ≤ 0xbf
  else if lead == 0xed then 0x80 ≤ next && next ≤ 0x9f
  else if lead == 0xf0 then 0x90 ≤ next && next ≤ 0xbf
  else if lead == 0xf4 then 0x80 ≤ next && next ≤ 0x8f
  else 0xe0 ≤ lead && lead ≤ 0xf4 && isTail next

/-- The number of octets that make up one broken character: as many as a character could begin
with, and one where it could begin with none of them. -/
def brokenLength : Bytes → Nat
  | lead :: next :: rest =>
    if beginLong lead next then if 0xf0 ≤ lead && rest.head?.any isTail then 3 else 2 else 1
  | _ => 1

theorem brokenLength_pos (b : Bytes) : 0 < brokenLength b := by
  unfold brokenLength
  split
  · split
    · split <;> decide
    · decide
  · decide

/-- Read bytes as a text, in which one replacement stands for every broken character. -/
def lossy : Bytes → List Char
  | [] => []
  | x :: b =>
    match character? (x :: b) with
    | some c => c :: lossy ((x :: b).drop c.utf8Size)
    | none => '\ufffd' :: lossy ((x :: b).drop (brokenLength (x :: b)))
termination_by b => b.length
decreasing_by
  · have := c.utf8Size_pos
    simp only [List.length_drop, List.length_cons]
    omega
  · have := brokenLength_pos (x :: b)
    simp only [List.length_drop, List.length_cons]
    omega

/-- A character that is cut off and one that is broken, between dashes. -/
example : lossy [0x2d, 0xff, 0x2d, 0xe2, 0x82] = ['-', '\ufffd', '-', '\ufffd'] := by cbv

/-! ## Octets of characters -/

/-- A character of ASCII, which has an octet of its own. -/
def IsAscii (c : Char) : Prop := c.toNat < 128

/-- The octet of a character of ASCII. -/
def octet (c : Char) : UInt8 := UInt8.ofNat c.toNat

theorem utf8EncodeChar_of_isAscii (h : IsAscii c) : String.utf8EncodeChar c = [octet c] :=
  if_pos (Nat.le_of_lt_succ h)

theorem le_ofNat {n : Nat} (hle : 128 ≤ n) (hlt : n < 256) : 0x80 ≤ UInt8.ofNat n := by
  rw [UInt8.le_iff_toNat_le, UInt8.toNat_ofNat_of_lt' hlt]
  exact hle

/-- The octets of any other character are none of ASCII. -/
theorem le_of_mem_utf8EncodeChar (h : ¬IsAscii c) (hx : x ∈ String.utf8EncodeChar c) :
    0x80 ≤ x := by
  have hc : ¬c.val.toNat ≤ 0x7f := fun hle => h (Nat.lt_succ_of_le hle)
  unfold String.utf8EncodeChar at hx
  simp only [hc, if_false] at hx
  split at hx
  · simp only [List.mem_cons, List.not_mem_nil, or_false] at hx
    rcases hx with rfl | rfl <;> exact le_ofNat (by omega) (by omega)
  · split at hx
    · simp only [List.mem_cons, List.not_mem_nil, or_false] at hx
      rcases hx with rfl | rfl | rfl <;> exact le_ofNat (by omega) (by omega)
    · simp only [List.mem_cons, List.not_mem_nil, or_false] at hx
      rcases hx with rfl | rfl | rfl | rfl <;> exact le_ofNat (by omega) (by omega)

/-- An octet of ASCII is that of one character. -/
theorem exists_octet (h : x < 0x80) : ∃ c, IsAscii c ∧ octet c = x := by
  have hlt : x.toNat < 128 := UInt8.lt_iff_toNat_lt.1 h
  have hvalid : x.toNat.isValidChar := .inl (by omega)
  have hnat : (Char.ofNat x.toNat).toNat = x.toNat := by
    rw [Char.ofNat, dif_pos hvalid]
    rfl
  refine ⟨Char.ofNat x.toNat, ?_, ?_⟩
  · rwa [IsAscii, hnat]
  · rw [octet, hnat, UInt8.ofNat_toNat]

theorem toNat_octet (h : IsAscii c) : (octet c).toNat = c.toNat :=
  UInt8.toNat_ofNat_of_lt' (Nat.lt_trans h (by decide))

theorem octet_lt (h : IsAscii c) : octet c < 0x80 := by
  rw [UInt8.lt_iff_toNat_lt, toNat_octet h]
  exact h

theorem octet_inj {d : Char} (hc : IsAscii c) (hd : IsAscii d) : octet c = octet d ↔ c = d := by
  rw [← UInt8.toNat_inj, toNat_octet hc, toNat_octet hd, Char.toNat_inj]

/-! ## What the reading begins with -/

theorem character?_encoded (c : Char) (b : Bytes) :
    character? (String.utf8EncodeChar c ++ b) = some c := by
  rw [character?, List.toByteArray_append]
  exact ByteArray.utf8DecodeChar?_utf8EncodeChar_append

theorem exists_of_character? (h : character? b = some c) :
    ∃ rest, b = String.utf8EncodeChar c ++ rest := by
  obtain ⟨rest, hrest⟩ := ByteArray.exists_of_utf8DecodeChar?_eq_some h
  refine ⟨rest.data.toList, ?_⟩
  have hdata := congrArg (fun a : ByteArray => a.data.toList) hrest
  simpa using hdata

theorem lossy_of_character? (h : character? (x :: b) = some c) :
    lossy (x :: b) = c :: lossy ((x :: b).drop c.utf8Size) := by
  rw [lossy]
  simp only [h]

theorem lossy_of_broken (h : character? (x :: b) = none) :
    lossy (x :: b) = '\ufffd' :: lossy ((x :: b).drop (brokenLength (x :: b))) := by
  rw [lossy]
  simp only [h]

/-- An octet of ASCII is read by itself. -/
theorem lossy_octet (h : IsAscii c) (b : Bytes) : lossy (octet c :: b) = c :: lossy b := by
  have hread : character? (octet c :: b) = some c := by
    have hencoded := character?_encoded c b
    rwa [utf8EncodeChar_of_isAscii h] at hencoded
  have hsize : c.utf8Size = 1 := by
    rw [← String.length_utf8EncodeChar, utf8EncodeChar_of_isAscii h, List.length_singleton]
  rw [lossy_of_character? hread, hsize, List.drop_one, List.tail_cons]

theorem le_of_beginLong {lead next : UInt8} (h : beginLong lead next = true) : 0x80 ≤ next := by
  unfold beginLong at h
  split at h
  · exact UInt8.le_trans (by decide) (of_decide_eq_true (Bool.and_eq_true_iff.1 h).1)
  split at h
  · exact of_decide_eq_true (Bool.and_eq_true_iff.1 h).1
  split at h
  · exact UInt8.le_trans (by decide) (of_decide_eq_true (Bool.and_eq_true_iff.1 h).1)
  split at h
  · exact of_decide_eq_true (Bool.and_eq_true_iff.1 h).1
  · exact of_decide_eq_true (Bool.and_eq_true_iff.1 (Bool.and_eq_true_iff.1 h).2).1

/-- No octet of a broken character is one of ASCII. -/
theorem le_of_mem_broken (hx : 0x80 ≤ x) {y : UInt8}
    (hy : y ∈ (x :: b).take (brokenLength (x :: b))) : 0x80 ≤ y := by
  cases b with
  | nil =>
      obtain rfl : y = x := by simpa [brokenLength] using hy
      exact hx
  | cons next rest =>
      rw [brokenLength] at hy
      split at hy
      next hlong =>
        have hnext := le_of_beginLong hlong
        split at hy
        next htail =>
          cases rest with
          | nil => simp at htail
          | cons z rest =>
              have hz : 0x80 ≤ z := by
                simp only [List.head?_cons, Option.any_some, isTail, Bool.and_eq_true,
                  decide_eq_true_eq] at htail
                exact htail.2.1
              simp only [List.take_succ_cons, List.take_zero, List.mem_cons, List.not_mem_nil,
                or_false] at hy
              rcases hy with rfl | rfl | rfl
              · exact hx
              · exact hnext
              · exact hz
        next =>
          simp only [List.take_succ_cons, List.take_zero, List.mem_cons, List.not_mem_nil,
            or_false] at hy
          rcases hy with rfl | rfl
          · exact hx
          · exact hnext
      next =>
        obtain rfl : y = x := by simpa using hy
        exact hx

/-- Any other octet is read together with what belongs to it, and that holds no octet of ASCII. -/
theorem lossy_of_le (hx : 0x80 ≤ x) : ∃ piece rest c, x :: b = piece ++ rest ∧ piece ≠ [] ∧
    (∀ y ∈ piece, 0x80 ≤ y) ∧ ¬IsAscii c ∧ lossy (x :: b) = c :: lossy rest := by
  cases hread : character? (x :: b) with
  | some c =>
      obtain ⟨rest, hrest⟩ := exists_of_character? hread
      have hc : ¬IsAscii c := by
        intro hascii
        rw [utf8EncodeChar_of_isAscii hascii] at hrest
        obtain rfl : x = octet c := (List.cons.inj hrest).1
        exact absurd hx (UInt8.not_le.2 (octet_lt hascii))
      refine ⟨String.utf8EncodeChar c, rest, c, hrest, String.utf8EncodeChar_ne_nil,
        fun y => le_of_mem_utf8EncodeChar hc, hc, ?_⟩
      rw [lossy_of_character? hread, hrest, ← String.length_utf8EncodeChar, List.drop_left]
  | none =>
      have hsplit := (List.take_append_drop (brokenLength (x :: b)) (x :: b)).symm
      refine ⟨_, _, '\ufffd', hsplit, ?_, fun y => le_of_mem_broken hx, ?_,
        lossy_of_broken hread⟩
      · have := brokenLength_pos (x :: b)
        simp
        omega
      · show ¬Char.toNat '\ufffd' < 128
        decide

/-! ## Looking for ASCII characters -/

theorem octet_ne (hc : IsAscii c) (hx : 0x80 ≤ x) : octet c ≠ x := by
  rintro rfl
  exact absurd hx (UInt8.not_le.2 (octet_lt hc))

/-- ASCII characters begin the text if their octets begin the bytes. -/
theorem prefix_lossy_iff (h : ∀ c ∈ t, IsAscii c) : t <+: lossy b ↔ t.map octet <+: b := by
  induction t generalizing b with
  | nil => simp
  | cons c t ih =>
      have hc : IsAscii c := h c List.mem_cons_self
      have ht : ∀ d ∈ t, IsAscii d := fun d hd => h d (List.mem_cons_of_mem c hd)
      cases b with
      | nil => simp [lossy]
      | cons x b =>
          rw [List.map_cons, List.cons_prefix_cons]
          by_cases hx : 0x80 ≤ x
          · obtain ⟨piece, rest, d, -, -, -, hd, hread⟩ := lossy_of_le (b := b) hx
            rw [hread, List.cons_prefix_cons]
            refine iff_of_false ?_ fun h => octet_ne hc hx h.1
            rintro ⟨rfl, -⟩
            exact hd hc
          · obtain ⟨d, hd, rfl⟩ := exists_octet (UInt8.not_le.1 hx)
            rw [lossy_octet hd, List.cons_prefix_cons, octet_inj hc hd, ih ht]

theorem not_prefix_of_le (h : ∀ c ∈ t, IsAscii c) (hne : t ≠ []) (hx : 0x80 ≤ x) :
    ¬t.map octet <+: x :: b := by
  obtain ⟨c, t, rfl⟩ := List.exists_cons_of_ne_nil hne
  rw [List.map_cons, List.cons_prefix_cons]
  exact fun hfirst => octet_ne (h c List.mem_cons_self) hx hfirst.1

/-- A run of ASCII octets does not begin in octets that are none. -/
theorem infix_append_iff (h : ∀ c ∈ t, IsAscii c) (hne : t ≠ []) (hpiece : ∀ y ∈ piece, 0x80 ≤ y) :
    t.map octet <:+: piece ++ rest ↔ t.map octet <:+: rest := by
  induction piece with
  | nil => rfl
  | cons y piece ih =>
      rw [List.cons_append, List.infix_cons_iff,
        or_iff_right (not_prefix_of_le h hne (hpiece y List.mem_cons_self)),
        ih fun z hz => hpiece z (List.mem_cons_of_mem y hz)]

/-- **ASCII characters in bytes that need not be text.** A run of them occurs in what the bytes are
read as exactly if its octets occur in the bytes. -/
theorem infix_lossy_iff (h : ∀ c ∈ t, IsAscii c) : t <:+: lossy b ↔ t.map octet <:+: b := by
  by_cases hne : t = []
  · simp [hne]
  -- On the length of the bytes, since a character may take several of them.
  induction hn : b.length using Nat.strongRecOn generalizing b with
  | _ n ih =>
      subst hn
      cases b with
      | nil => simp [lossy]
      | cons x b =>
          have hfirst := prefix_lossy_iff (b := x :: b) h
          by_cases hx : 0x80 ≤ x
          · rw [iff_false_right (not_prefix_of_le h hne hx)] at hfirst
            obtain ⟨piece, rest, d, hsplit, hpiece, hle, -, hread⟩ := lossy_of_le (b := b) hx
            have hshort : rest.length < (x :: b).length := by
              have := List.length_pos_iff.2 hpiece
              rw [hsplit, List.length_append]
              omega
            rw [hread] at hfirst ⊢
            rw [List.infix_cons_iff, or_iff_right hfirst, hsplit, infix_append_iff h hne hle]
            exact ih _ hshort rfl
          · obtain ⟨d, hd, rfl⟩ := exists_octet (UInt8.not_le.1 hx)
            rw [lossy_octet hd] at hfirst ⊢
            rw [List.infix_cons_iff, List.infix_cons_iff, hfirst, ih _ (Nat.lt_succ_self _) rfl]

theorem flatMap_utf8EncodeChar (h : ∀ c ∈ t, IsAscii c) :
    t.flatMap String.utf8EncodeChar = t.map octet := by
  induction t with
  | nil => rfl
  | cons c t ih =>
      rw [List.flatMap_cons, utf8EncodeChar_of_isAscii (h c List.mem_cons_self),
        ih fun d hd => h d (List.mem_cons_of_mem c hd)]
      rfl

/-- A text of ASCII characters is written as their octets. -/
theorem ofText_of_isAscii {text : String} (h : ∀ c ∈ text.toList, IsAscii c) :
    ofText text = text.toList.map octet := by
  have hencoded : ofText text = (text.toList.utf8Encode).data.toList := by
    rw [String.utf8Encode_toList]
    rfl
  rw [hencoded, List.utf8Encode, List.toList_data_toByteArray, flatMap_utf8EncodeChar h]

end ConnectionSecurity.Bytes
