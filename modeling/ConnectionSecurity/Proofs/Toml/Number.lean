import Mathlib.Data.Nat.Digits.Defs
import ConnectionSecurity.Toml.Printer

/-!
# Numbers are read as they are written

The digits of a number, to any base up to sixteen, have the number as their value
(`ofDigits_toDigits`). They have no leading zero, so the reader of integers takes the decimal ones
(`integer?_writeInteger`).
-/

namespace ConnectionSecurity.Toml

variable {base n : Nat} {c : Char}

/-! ## Digits -/

theorem hexDigit?_digitChar : ∀ d : Fin 16, Text.hexDigit? d.val.digitChar = some d.val := by decide

theorem ofDigits_concat (base : Nat) (ds : List Char) (c : Char) :
    ofDigits base (ds ++ [c]) = ofDigits base ds * base + (Text.hexDigit? c).getD 0 := by
  rw [ofDigits, ofDigits, List.foldl_append]
  rfl

/-- **The digits of a number have it as their value.** -/
theorem ofDigits_toDigits (hbase : 1 < base) (hlimit : base ≤ 16) (n : Nat) :
    ofDigits base (Nat.toDigits base n) = n := by
  induction n using Nat.strongRecOn with
  | _ n ih =>
      have hdigit (k : Nat) (hk : k < base) : (Text.hexDigit? k.digitChar).getD 0 = k := by
        rw [hexDigit?_digitChar ⟨k, Nat.lt_of_lt_of_le hk hlimit⟩]
        rfl
      by_cases hn : n < base
      · rw [Nat.toDigits_of_lt_base hn]
        show 0 * base + (Text.hexDigit? n.digitChar).getD 0 = n
        rw [hdigit n hn, Nat.zero_mul, Nat.zero_add]
      · have hle : base ≤ n := Nat.le_of_not_lt hn
        have hless : n / base < n := Nat.div_lt_self (by omega) hbase
        rw [Nat.toDigits_of_base_le hbase hle, ofDigits_concat, ih _ hless,
          hdigit _ (Nat.mod_lt n (by omega)), Nat.mul_comm, Nat.div_add_mod]

/-- What holds of every digit holds of the digits of a number. -/
theorem forall_mem_toDigits {P : Char → Prop} (hbase : 1 < base)
    (h : ∀ d, d < base → P d.digitChar) (n : Nat) : ∀ c ∈ Nat.toDigits base n, P c := by
  induction n using Nat.strongRecOn with
  | _ n ih =>
      by_cases hn : n < base
      · rw [Nat.toDigits_of_lt_base hn]
        exact List.forall_mem_singleton.2 (h n hn)
      · have hle : base ≤ n := Nat.le_of_not_lt hn
        rw [Nat.toDigits_of_base_le hbase hle, List.forall_mem_append]
        exact ⟨ih _ (Nat.div_lt_self (by omega) hbase),
          List.forall_mem_singleton.2 (h _ (Nat.mod_lt n (by omega)))⟩

theorem isHexDigit_of_mem_toDigits (hbase : 1 < base) (hlimit : base ≤ 16)
    (hc : c ∈ Nat.toDigits base n) : Text.isHexDigit c = true := by
  refine forall_mem_toDigits (P := fun c => Text.isHexDigit c = true) hbase (fun d hd => ?_) n c hc
  show Text.isHexDigit d.digitChar = true
  rw [Text.isHexDigit, hexDigit?_digitChar ⟨d, Nat.lt_of_lt_of_le hd hlimit⟩]
  rfl

/-- Only the number zero begins with that digit. -/
theorem head?_toDigits (hbase : 1 < base) (hlimit : base ≤ 16) (hn : n ≠ 0) :
    (Nat.toDigits base n).head? ≠ some '0' := by
  induction n using Nat.strongRecOn with
  | _ n ih =>
      by_cases hlt : n < base
      · have hdigit := hexDigit?_digitChar ⟨n, Nat.lt_of_lt_of_le hlt hlimit⟩
        rw [Nat.toDigits_of_lt_base hlt]
        intro h
        rw [Option.some.inj h] at hdigit
        exact hn (Option.some.inj hdigit).symm
      · have hle : base ≤ n := Nat.le_of_not_lt hlt
        have hne : n / base ≠ 0 := Nat.ne_of_gt (Nat.div_pos hle (by omega))
        have hhead := ih _ (Nat.div_lt_self (by omega) hbase) hne
        obtain ⟨d, ds, hd⟩ :=
          List.exists_cons_of_ne_nil (Nat.toDigits_ne_nil (n := n / base) (b := base))
        rw [Nat.toDigits_of_base_le hbase hle]
        rw [hd] at hhead ⊢
        exact hhead

/-! ## Decimal numbers -/

/-- Digits without underscores between them are all digits. -/
theorem digits?_of_all {isDigit : Char → Bool} (hunderscore : isDigit '_' = false) {cs : List Char}
    (hne : cs ≠ []) (hall : ∀ c ∈ cs, isDigit c = true) : digits? isDigit cs = some cs := by
  induction cs with
  | nil => exact absurd rfl hne
  | cons c cs ih =>
      obtain ⟨hc, hcs⟩ := List.forall_mem_cons.1 hall
      cases cs with
      | nil => simp [digits?, hc]
      | cons d ds =>
          have hd : d ≠ '_' := by
            rintro rfl
            rw [hcs _ List.mem_cons_self] at hunderscore
            cases hunderscore
          unfold digits?
          split
          next heq => cases heq
          next heq => cases heq
          next heq => exact absurd (List.cons.inj (List.cons.inj heq).2).1 hd
          next heq =>
            obtain ⟨rfl, rfl⟩ := List.cons.inj heq
            rw [if_pos hc, ih (List.cons_ne_nil d ds) hcs]
            rfl

theorem decimalDigits?_toDigits (n : Nat) :
    decimalDigits? (Nat.toDigits 10 n) = some (Nat.toDigits 10 n) := by
  have hdigits : digits? Char.isDigit (Nat.toDigits 10 n) = some (Nat.toDigits 10 n) :=
    digits?_of_all (by decide) Nat.toDigits_ne_nil
      (fun c hc => Nat.isDigit_of_mem_toDigits (by decide) (by decide) hc)
  unfold decimalDigits?
  rw [hdigits]
  split
  next hzero =>
    have hhead := congrArg List.head? (Option.some.inj hzero)
    by_cases hn : n = 0
    · subst hn
      cases hzero
    · exact absurd hhead (head?_toDigits (by decide) (by decide) hn)
  next => rfl

/-- A number is read back with or without a sign, as decimal. -/
theorem decimal?_writeInteger (n : Int) : decimal? (writeInteger n) = some n := by
  have hdigits := decimalDigits?_toDigits n.natAbs
  have hvalue : ofDigits 10 (Nat.toDigits 10 n.natAbs) = n.natAbs :=
    ofDigits_toDigits (by decide) (by decide) n.natAbs
  unfold writeInteger
  split
  next hneg =>
    show (decimalDigits? (Nat.toDigits 10 n.natAbs)).map (fun ds => -(ofDigits 10 ds : Int)) = _
    rw [hdigits, Option.map_some, hvalue]
    congr 1
    omega
  next hneg =>
    have hsigned : signed (Nat.toDigits 10 n.natAbs) = (false, Nat.toDigits 10 n.natAbs) := by
      have hdigit {c : Char} {cs : List Char} (h : Nat.toDigits 10 n.natAbs = c :: cs) :
          c.isDigit = true := by
        refine Nat.isDigit_of_mem_toDigits (b := 10) (n := n.natAbs) (by decide) (by decide) ?_
        rw [h]
        exact List.mem_cons_self
      unfold signed
      split
      next h => exact absurd (hdigit h) (by decide)
      next h => exact absurd (hdigit h) (by decide)
      next => rfl
    rw [decimal?, hsigned]
    show (decimalDigits? (Nat.toDigits 10 n.natAbs)).map (fun ds => (ofDigits 10 ds : Int)) = _
    rw [hdigits, Option.map_some, hvalue]
    congr 1
    omega

/-- A decimal number marks no base: behind a leading zero nothing follows. -/
theorem writeInteger_ne_marked (n : Int) (c : Char) (cs : List Char) :
    writeInteger n ≠ '0' :: c :: cs := by
  unfold writeInteger
  split
  next => simp
  next hneg =>
    intro h
    by_cases hn : n.natAbs = 0
    · rw [hn] at h
      cases h
    · exact head?_toDigits (by decide) (by decide) hn (congrArg List.head? h)

/-- **An integer is read back** if it is in the range of integers. -/
theorem integer?_writeInteger {n : Int} (hn : inIntegerRange n = true) :
    integer? (writeInteger n) = some n := by
  have hfilter : Option.filter inIntegerRange (decimal? (writeInteger n)) = some n := by
    rw [decimal?_writeInteger, Option.filter_some_pos hn]
  unfold integer?
  split
  next h => exact absurd h (writeInteger_ne_marked n _ _)
  next h => exact absurd h (writeInteger_ne_marked n _ _)
  next h => exact absurd h (writeInteger_ne_marked n _ _)
  next => exact hfilter

end ConnectionSecurity.Toml
