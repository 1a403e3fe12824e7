import Mathlib
import ConnectionSecurity.Proofs.Text.Pieces
import ConnectionSecurity.Proofs.Toml.Number
import ConnectionSecurity.Secret.Flags

/-!
# Flags are read as they are written

All thirty-two flags are read back from the text of a word of flags (`Flags.ofText?_text`). The text
is a list of words, and each names some of the flags (`Flags.parts`); what they name together is the
whole word, since every known flag is either named and taken out of the rest, or not set at all.
-/

namespace ConnectionSecurity.Secret.Flags

variable {f g r acc : Flags}

/-! ## The parts of a word -/

/-- Flags are known by their bits. -/
theorem ext_bits (h : ∀ i : Nat, ∀ hi : i < 32, f.bits.toBitVec[i] = g.bits.toBitVec[i]) :
    f = g := by
  have hbits : f.bits = g.bits := UInt32.toBitVec_inj.1 (BitVec.eq_of_getElem_eq h)
  cases f
  cases g
  exact congrArg mk hbits

/-- The words of the text with the flags that each of them names. -/
def parts (f : Flags) : List (String × Flags) :=
  (named.filter fun (_, g) => f.contains g) ++
    if f.unnamed.isEmpty then [] else [(hexText f.unnamed.bits, f.unnamed)]

theorem words_eq (f : Flags) : f.words = f.parts.map (·.1) := by
  unfold words parts
  rw [List.map_append]
  split <;> rfl

/-- A flag that is set stays set if it is put with the others and taken out of the rest. -/
theorem union_of_contains (hsum : acc.union r = f) (h : f.contains g = true) :
    (acc.union g).union (r.without g) = f := by
  have hg : f.bits &&& g.bits = g.bits := beq_iff_eq.1 h
  subst hsum
  apply ext_bits
  intro i hi
  have hbit := congrArg (·.toBitVec[i]) hg
  simp only [bits_union, bits_without, UInt32.toBitVec_or, UInt32.toBitVec_and,
    UInt32.toBitVec_not, BitVec.getElem_or, BitVec.getElem_and, BitVec.getElem_not] at hbit ⊢
  grind

/-- A flag that is not set can be taken out of the rest. -/
theorem union_of_inter_eq_none (hsum : acc.union r = f) (h : f.inter g = none) :
    acc.union (r.without g) = f := by
  have hg : f.bits &&& g.bits = 0 := congrArg bits h
  subst hsum
  apply ext_bits
  intro i hi
  have hbit := congrArg (·.toBitVec[i]) hg
  simp only [bits_union, bits_without, UInt32.toBitVec_or, UInt32.toBitVec_and,
    UInt32.toBitVec_not, BitVec.getElem_or, BitVec.getElem_and, BitVec.getElem_not] at hbit ⊢
  simp at hbit
  grind

/-- Of a single flag all is set or nothing. -/
theorem inter_eq_none_of_single {k : Nat} (hk : g.bits.toNat = 2 ^ k) (h : f.contains g = false) :
    f.inter g = none := by
  have hand := Nat.and_two_pow f.bits.toNat k
  cases hbit : f.bits.toNat.testBit k with
  | true =>
      rw [hbit, ← hk] at hand
      have hcontains : f.bits &&& g.bits = g.bits :=
        UInt32.toNat_inj.1 (by simpa using hand)
      rw [contains, hcontains] at h
      simp at h
  | false =>
      rw [hbit, ← hk] at hand
      have hzero : f.bits &&& g.bits = 0 := UInt32.toNat_inj.1 (by simpa using hand)
      exact congrArg mk hzero

/-- The flags that were named so far and the rest make up the word, at every known flag. -/
theorem union_named (l : List (String × Flags)) (hl : ∀ p ∈ l, ∃ k, p.2.bits.toNat = 2 ^ k)
    (hsum : acc.union r = f) :
    (((l.filter fun (_, g) => f.contains g).map (·.2)).foldl union acc).union
      (l.foldl (fun r (_, g) => r.without g) r) = f := by
  induction l generalizing acc r with
  | nil => exact hsum
  | cons p l ih =>
      obtain ⟨name, g⟩ := p
      obtain ⟨⟨k, hk⟩, hrest⟩ := List.forall_mem_cons.1 hl
      cases hset : f.contains g with
      | true =>
          simp only [List.filter_cons, hset, if_true]
          exact ih hrest (union_of_contains hsum hset)
      | false =>
          simp only [List.filter_cons, hset, Bool.false_eq_true, if_false]
          exact ih hrest (union_of_inter_eq_none hsum (inter_eq_none_of_single hk hset))

theorem none_union (f : Flags) : none.union f = f := by
  apply ext_bits
  intro i hi
  simp [none]

theorem union_none (f : Flags) : f.union none = f := by
  apply ext_bits
  intro i hi
  simp [none]

/-- **The parts make up the word.** -/
theorem foldl_parts (f : Flags) : (f.parts.map (·.2)).foldl union none = f := by
  have hsingle : ∀ p ∈ named, ∃ k, p.2.bits.toNat = 2 ^ k := by
    simp only [named, List.forall_mem_cons, List.not_mem_nil, false_implies, implies_true, and_true]
    exact ⟨⟨0, rfl⟩, ⟨1, rfl⟩, ⟨2, rfl⟩⟩
  have hnamed := union_named named hsingle (none_union f)
  unfold parts
  rw [List.map_append, List.foldl_append]
  split
  next hempty =>
    have hunnamed : f.unnamed = none := congrArg mk (beq_iff_eq.1 hempty)
    rw [unnamed] at hunnamed
    rw [hunnamed, union_none] at hnamed
    exact hnamed
  next => exact hnamed

/-! ## Words -/

/-- Without a sign in front, the digits are all there is. -/
theorem ofHex?_of_digits {cs : List Char} (hne : cs ≠ [])
    (hdigits : ∀ c ∈ cs, Text.isHexDigit c = true) : ofHex? cs =
      if Toml.ofDigits 16 cs < UInt32.size then some ⟨UInt32.ofNat (Toml.ofDigits 16 cs)⟩
      else Option.none := by
  unfold ofHex?
  dsimp only
  split
  next =>
    exact absurd (hdigits '+' List.mem_cons_self) (by decide)
  next =>
    rw [if_neg (by simpa [hne] using hdigits)]
    rfl

/-- A number is read back from its hexadecimal digits. -/
theorem ofHex?_toDigits (n : UInt32) : ofHex? (Nat.toDigits 16 n.toNat) = some ⟨n⟩ := by
  have hvalue : Toml.ofDigits 16 (Nat.toDigits 16 n.toNat) = n.toNat :=
    Toml.ofDigits_toDigits (by decide) (by decide) n.toNat
  rw [ofHex?_of_digits Nat.toDigits_ne_nil
    (fun c hc => Toml.isHexDigit_of_mem_toDigits (by decide) (by decide) hc), hvalue,
    if_pos (UInt32.toNat_lt_size n), UInt32.ofNat_toNat]

theorem toList_hexText (n : UInt32) :
    (hexText n).toList = '0' :: 'x' :: Nat.toDigits 16 n.toNat := by
  simp [hexText]

/-- Each word names its part. -/
theorem ofWord?_of_mem_parts : ∀ p ∈ f.parts, ofWord? p.1.toList = some p.2 := by
  have hnamed : ∀ p ∈ named, ofWord? p.1.toList = some p.2 := by
    simp only [named, List.forall_mem_cons, List.not_mem_nil, false_implies, implies_true, and_true]
    exact ⟨by decide, by decide, by decide⟩
  unfold parts
  rw [List.forall_mem_append]
  refine ⟨fun p hp => hnamed p (List.mem_filter.1 hp).1, ?_⟩
  split
  next => exact fun p hp => by cases hp
  next =>
    rw [List.forall_mem_singleton, toList_hexText]
    exact ofHex?_toDigits f.unnamed.bits

/-- A word has no blank and no bar in it, and is not empty. -/
theorem isWordChar_of_mem_parts : ∀ p ∈ f.parts, p.1.toList ≠ [] ∧
    ∀ c ∈ p.1.toList, Text.IsWordChar '|' c := by
  have hnamed : ∀ p ∈ named, p.1.toList ≠ [] ∧ ∀ c ∈ p.1.toList, Text.IsWordChar '|' c := by
    simp [named, Text.IsWordChar, Text.isBlank]
  have hdigit : ∀ d : Fin 16, Text.IsWordChar '|' d.val.digitChar := by
    unfold Text.IsWordChar
    decide
  unfold parts
  rw [List.forall_mem_append]
  refine ⟨fun p hp => hnamed p (List.mem_filter.1 hp).1, ?_⟩
  split
  next => exact fun p hp => by cases hp
  next =>
    rw [List.forall_mem_singleton, toList_hexText]
    refine ⟨List.cons_ne_nil _ _, ?_⟩
    rw [List.forall_mem_cons, List.forall_mem_cons]
    refine ⟨hdigit 0, ⟨by decide, by decide⟩, ?_⟩
    exact Toml.forall_mem_toDigits (by decide) (fun d hd => hdigit ⟨d, hd⟩) _

theorem mapM_eq_some {α β γ : Type} {l : List α} {g : α → β} {h : α → γ} {read : β → Option γ}
    (hread : ∀ a ∈ l, read (g a) = some (h a)) : (l.map g).mapM read = some (l.map h) := by
  induction l with
  | nil => rfl
  | cons a l ih =>
      obtain ⟨ha, hl⟩ := List.forall_mem_cons.1 hread
      rw [List.map_cons, List.mapM_cons, ha, ih hl]
      rfl

/-! ## The text -/

/-- **Flags are read back from their text**, the known ones and the others. -/
theorem ofText?_text (f : Flags) : ofText? f.text = some f := by
  have hfold := foldl_parts f
  have hchars : f.text.toList = [' ', '|', ' '].intercalate (f.parts.map (·.1.toList)) := by
    rw [text, String.toList_intercalate, words_eq, List.map_map]
    rfl
  by_cases hparts : f.parts = []
  · rw [hparts] at hchars hfold
    rw [ofText?, hchars]
    exact congrArg some hfold
  · have hwords : ∀ w ∈ f.parts.map (·.1.toList), ∀ c ∈ w, Text.IsWordChar '|' c := by
      intro w hw
      obtain ⟨p, hp, rfl⟩ := List.mem_map.1 hw
      exact (isWordChar_of_mem_parts p hp).2
    have hsplit := Text.map_trimmed_splitOnP (by decide) (by simpa using hparts) hwords
    rw [← hchars] at hsplit
    have hblank : ¬(Text.trimmed f.text.toList).isEmpty = true := by
      obtain ⟨p, ps, hp⟩ := List.exists_cons_of_ne_nil hparts
      obtain ⟨hne, hword⟩ := isWordChar_of_mem_parts p (hp ▸ List.mem_cons_self)
      obtain ⟨c, cs, hc⟩ := List.exists_cons_of_ne_nil hne
      have hmem : c ∈ f.text.toList := by
        rw [hchars, hp]
        cases ps <;> simp [hc]
      intro hempty
      have hall := Text.isBlank_of_trimmed_eq_nil (List.isEmpty_iff.1 hempty) c hmem
      rw [(hword c (hc ▸ List.mem_cons_self)).1] at hall
      cases hall
    have hpieces : (Text.splitOnP (· == '|') f.text.toList).mapM
        (fun piece => ofWord? (Text.trimmed piece)) = some (f.parts.map (·.2)) := by
      have hread : (f.parts.map (·.1.toList)).mapM ofWord? = some (f.parts.map (·.2)) :=
        mapM_eq_some ofWord?_of_mem_parts
      rw [← hsplit, List.mapM_map] at hread
      exact hread
    unfold ofText?
    rw [if_neg hblank, hpieces, Option.map_some, hfold]

end ConnectionSecurity.Secret.Flags
