import ConnectionSecurity.Asn1.Element

/-!
# Reading a value

What a reader of values makes of a byte string is found from its first octets: the identifier says
whether the value is a leaf or a sequence (`element?_eq_some`), and the content of a sequence begins
with the octet behind its header, however its length is written (`content?_eq_some`). The values in
a sequence are read off its content one by one (`values?_cons_eq_some`).
-/

namespace ConnectionSecurity.Asn1

variable {b bs rest body content : Bytes} {id : Identifier} {hd : Header} {e : Element}
  {depth fuel : Nat}

/-! ## Identifiers -/

namespace Identifier

def integer : Identifier := ⟨.universal, false, 2⟩

def octetString : Identifier := ⟨.universal, false, 4⟩

def objectId : Identifier := ⟨.universal, false, 6⟩

def sequence : Identifier := ⟨.universal, true, 16⟩

end Identifier

theorem identifier_of_read? (h : Header.read? b = some (hd, rest)) :
    ∃ body, identifier? b = some (hd.identifier, body) := by
  simp only [Header.read?, Option.bind_eq_bind, Option.bind_eq_some_iff] at h
  obtain ⟨⟨identifier, body⟩, hidentifier, ⟨extent, _⟩, -, h⟩ := h
  split at h
  · cases h
  · cases h
    exact ⟨body, hidentifier⟩

/-- The header of a sequence in a single octet. -/
theorem read?_sequence : Header.read? (0x30 :: bs) = some (hd, rest) ↔
    ∃ extent, extent? bs = some (extent, rest) ∧ hd = ⟨.sequence, extent⟩ := by
  have hid : identifier? (0x30 :: bs) = some (.sequence, bs) := rfl
  cases hextent : extent? bs with
  | none => simp [Header.read?, hid, hextent]
  | some found =>
      obtain ⟨extent, body⟩ := found
      simp only [Header.read?, hid, hextent, Identifier.sequence, Option.bind_eq_bind,
        Option.bind_some, Bool.not_true, Bool.and_false, Bool.false_eq_true, if_false,
        Option.pure_def, Option.some.injEq, Prod.mk.injEq]
      constructor
      · rintro ⟨rfl, rfl⟩
        exact ⟨extent, ⟨rfl, rfl⟩, rfl⟩
      · rintro ⟨_, ⟨rfl, rfl⟩, rfl⟩
        exact ⟨rfl, rfl⟩

/-- The header of an object identifier. It has a length. -/
theorem read?_objectId (h : Header.read? (0x06 :: bs) = some (hd, rest)) :
    ∃ length, hd = ⟨.objectId, .definite length⟩ := by
  have hid : identifier? (0x06 :: bs) = some (.objectId, bs) := rfl
  cases hextent : extent? bs with
  | none => simp [Header.read?, hid, hextent] at h
  | some found =>
      obtain ⟨extent, body⟩ := found
      cases extent with
      | definite length =>
          refine ⟨length, ?_⟩
          simp [Header.read?, hid, hextent] at h
          exact h.1.symm
      | indefinite => simp [Header.read?, hid, hextent, Identifier.objectId] at h

/-! ## How much a header takes -/

theorem length_longTag? {number number' left : Nat}
    (h : longTag? number left b = some (number', rest)) : rest.length < b.length := by
  induction left generalizing number b with
  | zero => cases h
  | succ left ih =>
      cases b with
      | nil => cases h
      | cons x bs =>
          rw [longTag?] at h
          split at h
          · cases h
            exact Nat.lt_succ_self _
          · exact Nat.lt_succ_of_lt (ih h)

theorem length_identifier? (h : identifier? b = some (id, rest)) : rest.length < b.length := by
  cases b with
  | nil => cases h
  | cons x bs =>
      rw [identifier?] at h
      split at h
      · obtain ⟨⟨number, more⟩, htag, hfound⟩ := Option.map_eq_some_iff.1 h
        cases hfound
        exact Nat.lt_succ_of_lt (length_longTag? htag)
      · cases h
        exact Nat.lt_succ_self _

theorem length_extent? {extent : Extent} (h : extent? b = some (extent, rest)) :
    rest.length < b.length := by
  cases b with
  | nil => cases h
  | cons x bs =>
      simp only [extent?] at h
      split at h
      · cases h
        exact Nat.lt_succ_self _
      split at h
      · cases h
        exact Nat.lt_succ_self _
      split at h
      · cases h
      split at h
      · cases h
        simp only [List.length_drop, List.length_cons]
        omega
      · cases h

/-- The octets of a length alone make it, whatever content follows them. -/
theorem extent?_append {octets rest' : Bytes} {extent : Extent}
    (h : extent? (octets ++ rest) = some (extent, rest)) :
    extent? (octets ++ rest') = some (extent, rest') := by
  cases octets with
  | nil => exact absurd (length_extent? h) (Nat.lt_irrefl _)
  | cons x octets =>
      -- What a single octet leaves is all that follows it.
      have hsingle : octets ++ rest = rest → octets = [] := List.append_left_eq_self.1
      simp only [List.cons_append, extent?] at h ⊢
      split at h
      next hshort =>
        cases hsingle (congrArg Prod.snd (Option.some.inj h))
        cases h
        rw [if_pos hshort]
        rfl
      next hlong =>
        rw [if_neg hlong]
        split at h
        next hmark =>
          cases hsingle (congrArg Prod.snd (Option.some.inj h))
          cases h
          rw [if_pos hmark]
          rfl
        next hmark =>
          rw [if_neg hmark]
          split at h
          · cases h
          next hlast =>
            rw [if_neg hlast]
            -- The first octet says how many of them there are.
            obtain ⟨hfits, hfound⟩ := Option.ite_none_right_eq_some.1 h
            obtain ⟨hextent, hrest⟩ := Prod.mk.inj (Option.some.inj hfound)
            have hcount : octets.length = (x &&& 0x7f).toNat := by
              have henough := (Bool.and_eq_true_iff.1 hfits).1
              have hleft := congrArg List.length hrest
              rw [beq_iff_eq, List.length_take, List.length_append] at henough
              rw [List.length_drop, List.length_append] at hleft
              omega
            rw [List.take_left' hcount] at hfits hextent
            rw [List.take_left' hcount, List.drop_left' hcount, if_pos hfits, hextent]

/-- A header takes two octets at least. -/
theorem length_read? (h : Header.read? b = some (hd, rest)) : rest.length + 2 ≤ b.length := by
  simp only [Header.read?, Option.bind_eq_bind, Option.bind_eq_some_iff] at h
  obtain ⟨⟨identifier, b₁⟩, hidentifier, ⟨extent, b₂⟩, hextent, h⟩ := h
  have h₁ : b₁.length < b.length := length_identifier? hidentifier
  have h₂ : b₂.length < b₁.length := length_extent? hextent
  split at h
  · cases h
  · obtain rfl : b₂ = rest := congrArg Prod.snd (Option.some.inj h)
    omega

/-! ## Where a content ends -/

theorem take?_eq_some {n : Nat} : take? n b = some (content, rest) ↔
    n ≤ b.length ∧ content = b.take n ∧ rest = b.drop n := by
  unfold take?
  split
  next hfits => simp [hfits, eq_comm]
  next hshort => simp [hshort]

theorem definite?_eq_some (h : definite? b = some (id, content, rest)) :
    ∃ n body, Header.read? b = some (⟨id, .definite n⟩, body) ∧
      take? n body = some (content, rest) := by
  simp only [definite?, Option.bind_eq_bind, Option.bind_eq_some_iff] at h
  obtain ⟨⟨⟨identifier, extent⟩, body⟩, hread, h⟩ := h
  cases extent with
  | indefinite => cases h
  | definite n =>
      obtain ⟨⟨inside, behind⟩, htake, hfound⟩ := Option.bind_eq_some_iff.1 h
      cases hfound
      exact ⟨n, body, hread, htake⟩

/-- A step over a value leaves two octets less, and so does every way to an end mark. -/
theorem length_passUntilEnd {pass : Bytes → Option (Bool × Bytes)}
    (hpass : ∀ b found rest, pass b = some (found, rest) → rest.length + 2 ≤ b.length)
    (h : passUntilEnd pass fuel b = some rest) : rest.length + 2 ≤ b.length := by
  induction fuel generalizing b with
  | zero => cases h
  | succ fuel ih =>
      rw [passUntilEnd] at h
      split at h
      · cases h
      next hstep =>
        cases h
        exact hpass _ _ _ hstep
      next hstep =>
        have hlonger := hpass _ _ _ hstep
        have := ih h
        omega

/-- Go behind a value. -/
def passValue (depth : Nat) (b : Bytes) : Option (Bool × Bytes) :=
  (Header.read? b).bind fun (hd, body) => passContent depth hd body

theorem passContent_indefinite : passContent (depth + 1) ⟨id, .indefinite⟩ b =
    (passUntilEnd (passValue depth) b.length b).map fun rest => (false, rest) := rfl

theorem passContent_definite {n : Nat} : passContent (depth + 1) ⟨id, .definite n⟩ b =
    if n == 0 && id.number == 0 then some (true, b)
    else (take? n b).map fun (_, rest) => (false, rest) := rfl

/-- A value is longer than what is in it by its header. -/
theorem length_passValue_of {found : Bool}
    (hcontent : ∀ hd b found rest, passContent depth hd b = some (found, rest) →
      rest.length ≤ b.length)
    (h : passValue depth b = some (found, rest)) : rest.length + 2 ≤ b.length := by
  obtain ⟨⟨inner, body⟩, hread, hinner⟩ := Option.bind_eq_some_iff.1 h
  have h₁ : body.length + 2 ≤ b.length := length_read? hread
  have h₂ : rest.length ≤ body.length := hcontent _ _ _ _ hinner
  omega

theorem length_passContent {found : Bool} (h : passContent depth hd b = some (found, rest)) :
    rest.length ≤ b.length := by
  induction depth generalizing hd b found rest with
  | zero => cases h
  | succ depth ih =>
      obtain ⟨id, extent⟩ := hd
      cases extent with
      | definite n =>
          rw [passContent_definite] at h
          split at h
          · cases h
            exact Nat.le_refl _
          · obtain ⟨⟨content, more⟩, htake, hfound⟩ := Option.map_eq_some_iff.1 h
            cases hfound
            obtain ⟨-, -, rfl⟩ := take?_eq_some.1 htake
            simp
      | indefinite =>
          rw [passContent_indefinite] at h
          obtain ⟨more, hpassed, hfound⟩ := Option.map_eq_some_iff.1 h
          cases hfound
          have hvalue : ∀ b found rest, passValue depth b = some (found, rest) →
              rest.length + 2 ≤ b.length :=
            fun _ _ _ => length_passValue_of fun _ _ _ _ => ih
          have := length_passUntilEnd hvalue hpassed
          omega

theorem length_passValue {found : Bool} (h : passValue depth b = some (found, rest)) :
    rest.length + 2 ≤ b.length :=
  length_passValue_of (fun _ _ _ _ => length_passContent) h

/-! ## Contents -/

/-- A content with a length is as long as it says. -/
theorem content?_definite {n : Nat} : content? ⟨id, .definite n⟩ b = take? n b := by
  unfold content?
  rw [depthLimit, passContent_definite]
  split
  next hmark =>
    obtain ⟨rfl, -⟩ : n = 0 ∧ id.number = 0 := by simpa using hmark
    simp [take?]
  next =>
    by_cases hfits : n ≤ b.length
    · have hlength : b.length - (b.length - n) = n := by omega
      simp [take?, hfits, hlength]
    · simp [take?, hfits]

/-- A content may be all that is left. -/
theorem content?_whole (id : Identifier) (content : Bytes) :
    content? ⟨id, .definite content.length⟩ content = some (content, []) :=
  content?_definite.trans
    (take?_eq_some.2 ⟨Nat.le_refl _, (List.take_length).symm, (List.drop_length).symm⟩)

/-- A content without a length is what was passed, but for the last two octets. -/
theorem content?_indefinite : content? ⟨id, .indefinite⟩ b = some (content, rest) ↔
    passUntilEnd (passValue 49) b.length b = some rest ∧
      content = b.take (b.length - rest.length - 2) := by
  unfold content?
  rw [depthLimit, passContent_indefinite]
  cases passUntilEnd (passValue 49) b.length b with
  | none => simp
  | some behind =>
      simp only [Option.map_some, Option.bind_eq_bind, Option.bind_some, Option.pure_def,
        Option.some.injEq, Prod.mk.injEq, List.take_take, List.length_take]
      constructor
      · rintro ⟨rfl, rfl⟩
        refine ⟨rfl, ?_⟩
        congr 1
        omega
      · rintro ⟨rfl, rfl⟩
        refine ⟨?_, rfl⟩
        congr 1
        omega

/-- Nothing is in a value at the end of the bytes. -/
theorem content?_nil (h : content? hd [] = some (content, rest)) : content = [] ∧ rest = [] := by
  obtain ⟨id, extent⟩ := hd
  cases extent with
  | definite n =>
      obtain ⟨-, rfl, rfl⟩ := take?_eq_some.1 (content?_definite.symm.trans h)
      simp
  | indefinite =>
      obtain ⟨hpassed, -⟩ := content?_indefinite.1 h
      cases hpassed

/-- A content in front of which an object identifier stands begins with it, or is empty. An end mark
is no object identifier, so this does not depend on how the end is found. -/
theorem content?_objectId (h : content? hd (0x06 :: bs) = some (content, rest)) :
    content = [] ∧ rest = 0x06 :: bs ∨ ∃ more, content = 0x06 :: more := by
  obtain ⟨id, extent⟩ := hd
  cases extent with
  | definite n =>
      obtain ⟨-, rfl, rfl⟩ := take?_eq_some.1 (content?_definite.symm.trans h)
      cases n with
      | zero => exact .inl ⟨rfl, rfl⟩
      | succ n => exact .inr ⟨bs.take n, rfl⟩
  | indefinite =>
      right
      obtain ⟨hpassed, rfl⟩ := content?_indefinite.1 h
      rw [List.length_cons, passUntilEnd] at hpassed
      split at hpassed
      · cases hpassed
      next hmark =>
        obtain ⟨⟨inner, body⟩, hread, hinner⟩ := Option.bind_eq_some_iff.1 hmark
        obtain ⟨n, rfl⟩ := read?_objectId hread
        replace hinner := passContent_definite.symm.trans hinner
        simp [Identifier.objectId] at hinner
      next behind hstep =>
        have h₁ := length_passValue hstep
        have h₂ := length_passUntilEnd (fun _ _ _ => length_passValue) hpassed
        -- The object identifier and the end mark are four octets at least.
        obtain ⟨k, hk⟩ : ∃ k, (0x06 :: bs : Bytes).length - rest.length - 2 = k + 1 :=
          ⟨(0x06 :: bs : Bytes).length - rest.length - 3, by omega⟩
        exact ⟨bs.take k, by rw [hk, List.take_succ_cons]⟩

/-! ## Values -/

/-- A value is read as its header, its content, and what they make up. -/
theorem element?_eq_some : element? (depth + 1) b = some (e, rest) ↔
    ∃ hd body content, Header.read? b = some (hd, body) ∧
      content? hd body = some (content, rest) ∧
      ofContent? (element? depth) hd content = some e := by
  rw [element?]
  constructor
  · intro h
    split at h
    · cases h
    next hd body hread =>
      split at h
      · cases h
      next content behind hcontent =>
        obtain ⟨made, hmade, hfound⟩ := Option.map_eq_some_iff.1 h
        cases hfound
        exact ⟨hd, body, content, hread, hcontent, hmade⟩
  · rintro ⟨hd, body, content, hread, hcontent, hmade⟩
    simp [hread, hcontent, hmade]

/-- The values in a content, one by one. -/
theorem values?_cons {read : Bytes → Option (Element × Bytes)} {x : UInt8} {children : List Element}
    (h : values? read fuel (x :: bs) = some children) :
    ∃ n first behind more, read (x :: bs) = some (first, behind) ∧
      values? read n behind = some more ∧ children = first :: more := by
  cases fuel with
  | zero => cases h
  | succ n =>
      simp only [values?] at h
      split at h
      · cases h
      next first behind hfirst =>
        obtain ⟨more, hmore, rfl⟩ := Option.map_eq_some_iff.1 h
        exact ⟨n, first, behind, more, hfirst, hmore, rfl⟩

@[simp] theorem values?_nil {read : Bytes → Option (Element × Bytes)} :
    values? read fuel [] = some [] := by
  cases fuel <;> rfl

/-- A sequence that is read holds the values that are read in its content. -/
theorem element?_sequence : element? (depth + 1) (0x30 :: bs) = some (e, rest) ↔
    ∃ extent body content children, extent? bs = some (extent, body) ∧
      content? ⟨.sequence, extent⟩ body = some (content, rest) ∧
      values? (element? depth) content.length content = some children ∧
      e = .node .sequence children := by
  have hnode (extent : Extent) (content : Bytes) :
      ofContent? (element? depth) ⟨.sequence, extent⟩ content =
        (values? (element? depth) content.length content).map (.node .sequence) := rfl
  rw [element?_eq_some]
  constructor
  · rintro ⟨hd, body, content, hread, hcontent, hmade⟩
    obtain ⟨extent, hextent, rfl⟩ := read?_sequence.1 hread
    rw [hnode] at hmade
    obtain ⟨children, hchildren, rfl⟩ := Option.map_eq_some_iff.1 hmade
    exact ⟨extent, body, content, children, hextent, hcontent, hchildren, rfl⟩
  · rintro ⟨extent, body, content, children, hextent, hcontent, hchildren, rfl⟩
    refine ⟨_, body, content, read?_sequence.2 ⟨extent, hextent, rfl⟩, hcontent, ?_⟩
    rw [hnode, hchildren]
    rfl

theorem element?_objectId (h : element? (depth + 1) (0x06 :: bs) = some (e, rest)) :
    ∃ oid, e = .leaf .objectId oid := by
  obtain ⟨hd, body, content, hread, -, hleaf⟩ := element?_eq_some.1 h
  obtain ⟨length, rfl⟩ := read?_objectId hread
  exact ⟨content, (Option.some.inj hleaf).symm⟩

/-- A number in one octet. -/
theorem element?_small (x : UInt8) :
    element? (depth + 1) (0x02 :: 0x01 :: x :: bs) = some (.leaf .integer [x], bs) := by
  have hread : Header.read? (0x02 :: 0x01 :: x :: bs) =
      some (⟨.integer, .definite 1⟩, x :: bs) := rfl
  have htake : take? 1 (x :: bs) = some ([x], bs) := by simp [take?]
  exact element?_eq_some.2 ⟨_, _, [x], hread, content?_definite.trans htake, rfl⟩

end ConnectionSecurity.Asn1
