import ConnectionSecurity.Toml.Printer

/-!
# Texts are read as they are written

A text is written in one of four forms, and each has a reader that gives the text back and stops
right behind it (`quoted_writeText`).

Between double quotes one character may be written as an escape of up to six, but the reader always
ends it in the state in which it began (`ReadsEscapes.escaped`). So the inside of the quotes is read
by induction on the text, one character at a time. Between triple quotes the reader looks two
characters ahead at every quote: the induction then knows that no run of quotes inside is long
enough to be taken for the end, and that a run right before the end is taken along with it.
-/

namespace ConnectionSecurity.Toml

variable {c quote : Char} {cs rest : List Char} {r : Escape → Reader (List Char)}

/-! ## Escapes -/

theorem hexDigit?_capital : ∀ d : Fin 16, Text.hexDigit? d.val.digitChar.toUpper = some d.val := by
  decide

theorem ofCode?_toNat (c : Char) : ofCode? c.toNat = some c := by
  have hvalid : c.toNat.isValidChar := c.valid
  rw [ofCode?, if_pos hvalid, Char.ofNat_toNat]

theorem isPlain_of_not_needsCode (hcode : needsCode c = false) (hbreak : c ≠ '\n') :
    isPlain c = true := by
  by_cases htab : c = '\t'
  · simp [isPlain, htab]
  · simpa [needsCode, isPlain, htab, hbreak] using hcode

/-- How a reader of text in double quotes gets through a plain character or an escape. -/
structure ReadsEscapes (r : Escape → Reader (List Char)) : Prop where
  plain : ∀ {c cs}, c ≠ '"' → c ≠ '\\' → isPlain c = true →
    r .none (c :: cs) = push c (r .none cs)
  begun : ∀ {cs}, r .none ('\\' :: cs) = r .begun cs
  letter : ∀ {c d cs}, letterEscape? c = some d → r .begun (c :: cs) = push d (r .none cs)
  code : ∀ {cs}, r .begun ('u' :: cs) = r (.code 4 0) cs
  digit : ∀ (left : Nat) {c d value cs}, Text.hexDigit? c = some d →
    r (.code (left + 2) value) (c :: cs) = r (.code (left + 1) (value * 16 + d)) cs
  lastDigit : ∀ {c d value e cs}, Text.hexDigit? c = some d → ofCode? (value * 16 + d) = some e →
    r (.code 1 value) (c :: cs) = push e (r .none cs)

theorem readsEscapes_basicRest : ReadsEscapes basicRest where
  plain hquote hslash hplain := by simp [basicRest, hquote, hslash, hplain]
  begun := rfl
  letter h := by simp only [basicRest, h]
  code := rfl
  digit _ _ _ _ _ h := by simp [basicRest, h]
  lastDigit h he := by simp [basicRest, h, he]

theorem readsEscapes_basicLinesRest : ReadsEscapes basicLinesRest where
  plain hquote hslash hplain := by simp [basicLinesRest, hquote, hslash, hplain]
  begun := rfl
  letter h := by simp only [basicLinesRest, h]
  code := rfl
  digit _ _ _ _ _ h := by simp [basicLinesRest, h]
  lastDigit h he := by simp [basicLinesRest, h, he]

namespace ReadsEscapes

theorem fourDigits (h : ReadsEscapes r) (hc : c.toNat < 65536) (rest : List Char) :
    r (.code 4 0) (Toml.fourDigits c.toNat ++ rest) = push c (r .none rest) := by
  have hdigit (k : Nat) : Text.hexDigit? (k % 16).digitChar.toUpper = some (k % 16) :=
    hexDigit?_capital ⟨k % 16, Nat.mod_lt k (by decide)⟩
  have hvalue : (((0 * 16 + c.toNat / 4096 % 16) * 16 + c.toNat / 256 % 16) * 16 +
      c.toNat / 16 % 16) * 16 + c.toNat % 16 = c.toNat := by
    omega
  simp only [Toml.fourDigits, List.map_cons, List.map_nil, List.cons_append, List.nil_append]
  rw [h.digit 2 (hdigit _), h.digit 1 (hdigit _), h.digit 0 (hdigit _), h.lastDigit (hdigit _)]
  rw [hvalue]
  exact ofCode?_toNat c

/-- A character that is written with an escape, or as it is, is read back. -/
theorem escaped (h : ReadsEscapes r) (hquote : c ≠ '"') (hbreak : c ≠ '\n') (rest : List Char) :
    r .none (Toml.escaped c ++ rest) = push c (r .none rest) := by
  have hletter {l d : Char} (hl : letterEscape? l = some d) :
      r .none (['\\', l] ++ rest) = push d (r .none rest) := by
    rw [List.cons_append, List.cons_append, List.nil_append, h.begun, h.letter hl]
  unfold Toml.escaped
  -- The letters first, in the order in which they are tried.
  split
  next heq => obtain rfl := beq_iff_eq.1 heq; exact hletter rfl
  split
  next heq => obtain rfl := beq_iff_eq.1 heq; exact hletter rfl
  split
  next heq => obtain rfl := beq_iff_eq.1 heq; exact hletter rfl
  split
  next heq => obtain rfl := beq_iff_eq.1 heq; exact hletter rfl
  split
  next heq => obtain rfl := beq_iff_eq.1 heq; exact hletter rfl
  split
  next hcode =>
    have hc : c.toNat < 65536 := by
      simp [needsCode] at hcode
      omega
    rw [List.cons_append, List.cons_append, h.begun, h.code, h.fourDigits hc]
  next hslash hcode =>
    have hplain := isPlain_of_not_needsCode (by simpa using hcode) hbreak
    exact h.plain hquote (by simpa using hslash) hplain

end ReadsEscapes

/-- What is written for a character does not begin with a quote, nor with a line break. -/
theorem exists_escaped (hquote : c ≠ '"') (hbreak : c ≠ '\n') :
    ∃ x xs, escaped c = x :: xs ∧ x ≠ '"' ∧ x ≠ '\n' ∧ x ≠ '\r' := by
  unfold escaped
  repeat
    split
    next => exact ⟨'\\', _, rfl, by decide, by decide, by decide⟩
  next hreturn _ _ => exact ⟨c, [], rfl, hquote, hbreak, by simpa using hreturn⟩

/-! ## Between double quotes -/

/-- What is written for a text begins with a quote only at its end. -/
theorem exists_basicInside (c : Char) (cs : List Char) :
    ∃ x xs, basicInside (c :: cs) = x :: xs ∧ x ≠ '"' := by
  rw [basicInside]
  split
  next => exact ⟨'\\', _, rfl, by decide⟩
  next hbreak =>
    split
    next => exact ⟨'\\', _, rfl, by decide⟩
    next hquote =>
      obtain ⟨x, xs, hx, hne, -, -⟩ :=
        exists_escaped (by simpa using hquote) (by simpa using hbreak)
      exact ⟨x, xs ++ basicInside cs, by rw [hx, List.cons_append], hne⟩

theorem basicRest_basicInside (cs rest : List Char) :
    basicRest .none (basicInside cs ++ '"' :: rest) = some (cs, rest) := by
  induction cs with
  | nil => rfl
  | cons c cs ih =>
      have hpush : push c (basicRest .none (basicInside cs ++ '"' :: rest)) =
          some (c :: cs, rest) := by
        rw [ih]
        rfl
      rw [basicInside, List.append_assoc, ← hpush]
      by_cases hbreak : c = '\n'
      · subst hbreak
        rfl
      · rw [if_neg (by simpa using hbreak)]
        by_cases hquote : c = '"'
        · subst hquote
          rfl
        · rw [if_neg (by simpa using hquote), readsEscapes_basicRest.escaped hquote hbreak]

/-! ## Between single quotes -/

theorem literalRest_append (hplain : ∀ c ∈ cs, isPlain c = true) (hquote : '\x27' ∉ cs)
    (rest : List Char) : literalRest (cs ++ '\x27' :: rest) = some (cs, rest) := by
  induction cs with
  | nil => rfl
  | cons c cs ih =>
      obtain ⟨hc, hcs⟩ := List.forall_mem_cons.1 hplain
      obtain ⟨hne, hquote⟩ := not_or.1 (mt List.mem_cons.2 hquote)
      rw [List.cons_append, literalRest, if_neg (by simpa using Ne.symm hne), if_pos hc,
        ih hcs hquote]
      rfl

/-! ## The end of a text in triple quotes -/

/-- Another character is no end. -/
theorem closing?_of_ne (h : c ≠ quote) (cs : List Char) : closing? quote (c :: cs) = none := by
  cases cs with
  | nil => rfl
  | cons d cs => simp [closing?, h]

/-- Nor is a single quote before another character. -/
theorem closing?_quote_of_ne (h : c ≠ quote) (cs : List Char) :
    closing? quote (quote :: c :: cs) = none := by
  simp [closing?, h]

/-- Two more quotes are the end of a text. -/
theorem closing?_two (hrest : rest.head? ≠ some quote) :
    closing? quote (quote :: quote :: rest) = some ([], rest) := by
  cases rest with
  | nil => simp [closing?]
  | cons c rest =>
      have hc : c ≠ quote := fun h => hrest (congrArg some h)
      simp [closing?, hc]

/-- Of the quotes before the last three, the end takes one. -/
theorem closing?_three (hrest : rest.head? ≠ some quote) :
    closing? quote (quote :: quote :: quote :: rest) = some ([quote], rest) := by
  cases rest with
  | nil => simp [closing?]
  | cons c rest =>
      have hc : c ≠ quote := fun h => hrest (congrArg some h)
      simp [closing?, hc]

/-- Or two. -/
theorem closing?_four (quote : Char) (rest : List Char) :
    closing? quote (quote :: quote :: quote :: quote :: rest) = some ([quote, quote], rest) := by
  simp [closing?]

/-- What is written for the rest of a text, behind a quote. Either it is a run of quotes that is too
short to be an end by itself, or another character comes soon enough. -/
inductive ShortRun (quote : Char) : (cs written : List Char) → Prop
  | done : ShortRun quote [] []
  | one : ShortRun quote [quote] [quote]
  | other {x : Char} (cs xs : List Char) (hx : x ≠ quote) : ShortRun quote cs (x :: xs)
  | oneAndOther {x : Char} (cs xs : List Char) (hx : x ≠ quote) :
      ShortRun quote cs (quote :: x :: xs)

/-- A quote before a short run is read as one, or the end takes it along with the run. -/
theorem ShortRun.read {read : Reader (List Char)} {written : List Char}
    (h : ShortRun quote cs written)
    (hread : ∀ ds, read (quote :: ds) =
      match closing? quote ds with
      | some found => some found
      | none => push quote (read ds))
    (hrest : rest.head? ≠ some quote)
    (hrun : read (written ++ [quote, quote, quote] ++ rest) = some (cs, rest)) :
    read (quote :: (written ++ [quote, quote, quote] ++ rest)) = some (quote :: cs, rest) := by
  have hinside (hnone : closing? quote (written ++ [quote, quote, quote] ++ rest) = none) :
      read (quote :: (written ++ [quote, quote, quote] ++ rest)) = some (quote :: cs, rest) := by
    rw [hread, hnone, hrun]
    rfl
  cases h with
  | done =>
      show read (quote :: quote :: quote :: quote :: rest) = _
      rw [hread, closing?_three hrest]
  | one =>
      show read (quote :: quote :: quote :: quote :: quote :: rest) = _
      rw [hread, closing?_four]
  | other _ xs hx => exact hinside (closing?_of_ne hx _)
  | oneAndOther _ xs hx => exact hinside (closing?_quote_of_ne hx _)

/-! ## Between triple double quotes -/

/-- Of three quotes in a row the third is escaped, so what is written begins with a quote only if
the text does and there were not yet two. -/
theorem exists_basicLinesInside {run : Nat} (h : c ≠ '"' ∨ 2 ≤ run) (cs : List Char) :
    ∃ x xs, basicLinesInside run (c :: cs) = x :: xs ∧ x ≠ '"' := by
  rw [basicLinesInside]
  split
  next => exact ⟨'\n', _, rfl, by decide⟩
  next hbreak =>
    split
    next hquote =>
      have hrun : ¬run < 2 := by
        have hquote : c = '"' := beq_iff_eq.1 hquote
        have hrun := h.resolve_left (not_not_intro hquote)
        omega
      rw [if_neg hrun]
      exact ⟨'\\', _, rfl, by decide⟩
    next hquote =>
      obtain ⟨x, xs, hx, hne, -, -⟩ :=
        exists_escaped (by simpa using hquote) (by simpa using hbreak)
      exact ⟨x, xs ++ basicLinesInside 0 cs, by rw [hx, List.cons_append], hne⟩

theorem shortRun_basicLinesInside {run : Nat} (hrun : run < 2) (cs : List Char) :
    ShortRun '"' cs (basicLinesInside (run + 1) cs) := by
  cases cs with
  | nil => exact .done
  | cons c cs =>
      by_cases hc : c ≠ '"' ∨ 2 ≤ run + 1
      · obtain ⟨x, xs, hx, hne⟩ := exists_basicLinesInside hc cs
        rw [hx]
        exact .other _ xs hne
      · obtain ⟨hquote, hshort⟩ := not_or.1 hc
        obtain rfl : c = '"' := Decidable.not_not.1 hquote
        obtain rfl : run = 0 := by omega
        have hnext : basicLinesInside (0 + 1) ('"' :: cs) = '"' :: basicLinesInside 2 cs := by
          simp [basicLinesInside]
        rw [hnext]
        cases cs with
        | nil => exact .one
        | cons d ds =>
            obtain ⟨x, xs, hx, hne⟩ := exists_basicLinesInside (c := d) (.inr (Nat.le_refl 2)) ds
            rw [hx]
            exact .oneAndOther _ xs hne

theorem basicLinesRest_basicLinesInside (hrest : rest.head? ≠ some '"') (cs : List Char)
    (run : Nat) : basicLinesRest .none (basicLinesInside run cs ++ ['"', '"', '"'] ++ rest) =
      some (cs, rest) := by
  induction cs generalizing run with
  | nil =>
      show (match closing? '"' ('"' :: '"' :: rest) with
        | some found => some found
        | none => push '"' (basicLinesRest .none ('"' :: '"' :: rest))) = _
      rw [closing?_two hrest]
  | cons c cs ih =>
      rw [basicLinesInside]
      split
      next hbreak =>
        obtain rfl : c = '\n' := beq_iff_eq.1 hbreak
        show push '\n' (basicLinesRest .none (basicLinesInside 0 cs ++ ['"', '"', '"'] ++ rest)) = _
        rw [ih]
        rfl
      next hbreak =>
        split
        next hquote =>
          obtain rfl : c = '"' := beq_iff_eq.1 hquote
          split
          next hrun =>
            exact (shortRun_basicLinesInside hrun cs).read (fun _ => rfl) hrest (ih (run + 1))
          next =>
            show push '"' (basicLinesRest .none (basicLinesInside 0 cs ++ ['"', '"', '"'] ++ rest)) =
              _
            rw [ih]
            rfl
        next hquote =>
          rw [List.append_assoc, List.append_assoc, readsEscapes_basicLinesRest.escaped
            (by simpa using hquote) (by simpa using hbreak), ← List.append_assoc, ih]
          rfl

/-! ## Between triple single quotes -/

theorem le_longestRun (quote : Char) (run : Nat) (cs : List Char) :
    run ≤ longestRun quote run cs := by
  induction cs generalizing run with
  | nil => exact Nat.le_refl run
  | cons c cs ih =>
      rw [longestRun]
      split
      next => exact Nat.le_of_succ_le (ih (run + 1))
      next => exact Nat.le_max_left _ _

theorem longestRun_of_ne {run : Nat} (h : c ≠ quote) :
    longestRun quote run (c :: cs) = max run (longestRun quote 0 cs) := by
  rw [longestRun, if_neg (by simpa using h)]

theorem longestRun_quote (quote : Char) (run : Nat) (cs : List Char) :
    longestRun quote run (quote :: cs) = longestRun quote (run + 1) cs := by
  rw [longestRun, if_pos (by simp)]

theorem shortRun_of_longestRun {run : Nat} (h : longestRun quote (run + 1) cs ≤ 2) :
    ShortRun quote cs cs := by
  cases cs with
  | nil => exact .done
  | cons c cs =>
      by_cases hc : c = quote
      · subst hc
        rw [longestRun_quote] at h
        cases cs with
        | nil => exact .one
        | cons d ds =>
            have hd : d ≠ c := by
              rintro rfl
              rw [longestRun_quote] at h
              have hle := le_longestRun d (run + 1 + 1 + 1) ds
              omega
            exact .oneAndOther _ ds hd
      · exact .other _ cs hc

theorem literalLinesRest_append (hplain : ∀ c ∈ cs, needsCode c = false) {run : Nat}
    (hrun : longestRun '\x27' run cs ≤ 2) (hrest : rest.head? ≠ some '\x27') :
    literalLinesRest (cs ++ ['\x27', '\x27', '\x27'] ++ rest) = some (cs, rest) := by
  induction cs generalizing run with
  | nil =>
      show (match closing? '\x27' ('\x27' :: '\x27' :: rest) with
        | some found => some found
        | none => push '\x27' (literalLinesRest ('\x27' :: '\x27' :: rest))) = _
      rw [closing?_two hrest]
  | cons c cs ih =>
      obtain ⟨hc, hcs⟩ := List.forall_mem_cons.1 hplain
      by_cases hquote : c = '\x27'
      · subst hquote
        rw [longestRun_quote] at hrun
        exact (shortRun_of_longestRun hrun).read (fun _ => rfl) hrest (ih hcs hrun)
      · rw [longestRun_of_ne hquote] at hrun
        have hline : isPlain c = true ∨ endsLine c (cs ++ ['\x27', '\x27', '\x27'] ++ rest) := by
          by_cases hbreak : c = '\n'
          · right
            simp [endsLine, hbreak]
          · left
            exact isPlain_of_not_needsCode hc hbreak
        rw [List.cons_append, List.cons_append, literalLinesRest, if_neg (by simpa using hquote),
          if_pos (by simpa using hline), ih hcs (Nat.le_trans (Nat.le_max_right _ _) hrun)]
        rfl

/-! ## The four forms -/

/-- What is written for a text is read back, where no quote follows. -/
theorem quoted_basic (hrest : rest.head? ≠ some '"') (cs : List Char) :
    quoted (Quoting.basic.write cs ++ rest) = some (String.ofList cs, rest) := by
  have hinside : basicRest .none (basicInside cs ++ ['"'] ++ rest) = some (cs, rest) := by
    rw [List.append_assoc]
    exact basicRest_basicInside cs rest
  -- The second quote, if it is one, is the last.
  have hsingle : ∀ ds, basicInside cs ++ ['"'] ++ rest ≠ '"' :: '"' :: ds := by
    intro ds heq
    cases cs with
    | nil => exact hrest (congrArg List.head? (List.cons.inj heq).2)
    | cons c cs =>
        obtain ⟨x, xs, hx, hne⟩ := exists_basicInside c cs
        rw [hx] at heq
        exact hne (List.cons.inj heq).1
  show quoted ('"' :: (basicInside cs ++ ['"'] ++ rest)) = _
  unfold quoted
  split
  next heq => exact absurd (List.cons.inj heq).2 (hsingle _)
  next heq =>
    rw [← (List.cons.inj heq).2, hinside]
    rfl
  next heq => cases heq
  next heq => cases heq
  next hnot _ _ => exact absurd rfl (hnot _)

theorem quoted_literal (hplain : ∀ c ∈ cs, isPlain c = true) (hquote : '\x27' ∉ cs)
    (hrest : rest.head? ≠ some '\x27') :
    quoted (Quoting.literal.write cs ++ rest) = some (String.ofList cs, rest) := by
  have hinside : literalRest (cs ++ ['\x27'] ++ rest) = some (cs, rest) := by
    rw [List.append_assoc]
    exact literalRest_append hplain hquote rest
  have hsingle : ∀ ds, cs ++ ['\x27'] ++ rest ≠ '\x27' :: '\x27' :: ds := by
    intro ds heq
    cases cs with
    | nil => exact hrest (congrArg List.head? (List.cons.inj heq).2)
    | cons c cs =>
        obtain rfl := (List.cons.inj heq).1
        exact hquote List.mem_cons_self
  show quoted ('\x27' :: (cs ++ ['\x27'] ++ rest)) = _
  unfold quoted
  split
  next heq => cases heq
  next heq => cases heq
  next heq => exact absurd (List.cons.inj heq).2 (hsingle _)
  next heq =>
    rw [← (List.cons.inj heq).2, hinside]
    rfl
  next _ hnot => exact absurd rfl (hnot _)

/-- A line break that was put behind the opening quotes is dropped, and no other character is. -/
theorem dropLineBreak_opening {inside : List Char}
    (h : '\n' ∉ cs → inside.head? ≠ some '\n' ∧ inside.head? ≠ some '\r') :
    dropLineBreak ((if cs.contains '\n' then ['\n'] else []) ++ inside) = inside := by
  by_cases hbreak : '\n' ∈ cs
  · rw [if_pos (by simpa using hbreak)]
    rfl
  · obtain ⟨hline, hreturn⟩ := h hbreak
    rw [if_neg (by simpa using hbreak), List.nil_append]
    unfold dropLineBreak
    split
    next => exact absurd rfl hline
    next => exact absurd rfl hreturn
    next => rfl

theorem quoted_basicLines (hrest : rest.head? ≠ some '"') (cs : List Char) :
    quoted (Quoting.basicLines.write cs ++ rest) = some (String.ofList cs, rest) := by
  have hwrite : Quoting.basicLines.write cs ++ rest = '"' :: '"' :: '"' ::
      ((if cs.contains '\n' then ['\n'] else []) ++
        (basicLinesInside 0 cs ++ ['"', '"', '"'] ++ rest)) := by
    simp only [Quoting.write]
    split <;> simp
  have hdrop : dropLineBreak ((if cs.contains '\n' then ['\n'] else []) ++
      (basicLinesInside 0 cs ++ ['"', '"', '"'] ++ rest)) =
      basicLinesInside 0 cs ++ ['"', '"', '"'] ++ rest := by
    apply dropLineBreak_opening
    intro hbreak
    cases cs with
    | nil => exact ⟨by simp [basicLinesInside], by simp [basicLinesInside]⟩
    | cons c cs =>
        have hc : c ≠ '\n' := fun h => hbreak (h ▸ List.mem_cons_self)
        rw [basicLinesInside, if_neg (by simpa using hc)]
        split
        next => exact ⟨by simp, by simp⟩
        next hquote =>
          obtain ⟨x, xs, hx, -, hline, hreturn⟩ := exists_escaped (by simpa using hquote) hc
          rw [hx]
          exact ⟨by simpa using hline, by simpa using hreturn⟩
  rw [hwrite]
  show Option.map _ (basicLinesRest .none (dropLineBreak _)) = _
  rw [hdrop, basicLinesRest_basicLinesInside hrest]
  rfl

theorem quoted_literalLines (hplain : ∀ c ∈ cs, needsCode c = false)
    (hrun : longestRun '\x27' 0 cs ≤ 2) (hrest : rest.head? ≠ some '\x27') :
    quoted (Quoting.literalLines.write cs ++ rest) = some (String.ofList cs, rest) := by
  have hwrite : Quoting.literalLines.write cs ++ rest = '\x27' :: '\x27' :: '\x27' ::
      ((if cs.contains '\n' then ['\n'] else []) ++
        (cs ++ ['\x27', '\x27', '\x27'] ++ rest)) := by
    simp only [Quoting.write]
    split <;> simp
  have hdrop : dropLineBreak ((if cs.contains '\n' then ['\n'] else []) ++
      (cs ++ ['\x27', '\x27', '\x27'] ++ rest)) = cs ++ ['\x27', '\x27', '\x27'] ++ rest := by
    apply dropLineBreak_opening
    intro hbreak
    cases cs with
    | nil => exact ⟨by simp, by simp⟩
    | cons c cs =>
        refine ⟨?_, ?_⟩
        · rintro h
          obtain rfl := Option.some.inj h
          exact hbreak List.mem_cons_self
        · rintro h
          obtain rfl := Option.some.inj h
          exact absurd (hplain _ List.mem_cons_self) (by decide)
  rw [hwrite]
  show Option.map _ (literalLinesRest (dropLineBreak _)) = _
  rw [hdrop, literalLinesRest_append hplain hrun hrest]
  rfl

theorem not_mem_of_longestRun (h : longestRun quote 0 cs = 0) : quote ∉ cs := by
  induction cs with
  | nil => exact List.not_mem_nil
  | cons c cs ih =>
      have hc : c ≠ quote := by
        rintro rfl
        rw [longestRun_quote] at h
        have hle := le_longestRun c (0 + 1) cs
        omega
      rw [longestRun_of_ne hc, Nat.max_eq_right (Nat.zero_le _)] at h
      rw [List.mem_cons, not_or]
      exact ⟨Ne.symm hc, ih h⟩

/-- The form between single quotes is chosen only for what it can write. -/
theorem Quoting.of_eq_literal (h : Quoting.of cs = .literal) :
    (∀ c ∈ cs, isPlain c = true) ∧ '\x27' ∉ cs := by
  unfold Quoting.of at h
  simp only at h
  split at h
  next => cases h
  split at h
  next hform =>
    simp only [Bool.and_eq_true, Bool.not_eq_true', List.any_eq_false, beq_iff_eq,
      List.contains_eq_mem, decide_eq_false_iff_not] at hform
    obtain ⟨⟨hcodes, hsingles⟩, hbreak⟩ := hform
    refine ⟨?_, not_mem_of_longestRun hsingles⟩
    intro c hc
    apply isPlain_of_not_needsCode (by simpa using hcodes c hc)
    rintro rfl
    exact hbreak hc
  split at h
  next => cases h
  split at h
  next => cases h
  split at h <;> cases h

/-- And so is the form between three of them. -/
theorem Quoting.of_eq_literalLines (h : Quoting.of cs = .literalLines) :
    (∀ c ∈ cs, needsCode c = false) ∧ longestRun '\x27' 0 cs ≤ 2 := by
  unfold Quoting.of at h
  simp only at h
  split at h
  next => cases h
  split at h
  next => cases h
  split at h
  next => cases h
  split at h
  next hform =>
    simp only [Bool.and_eq_true, Bool.not_eq_true', List.any_eq_false, decide_eq_true_eq] at hform
    exact ⟨fun c hc => by simpa using hform.1 c hc, hform.2⟩
  split at h <;> cases h

/-- **A text is read back**, whatever it contains, where no quote follows. -/
theorem quoted_writeText (s : String)
    (hrest : rest.head? ≠ some '"' ∧ rest.head? ≠ some '\x27') :
    quoted (writeText s ++ rest) = some (s, rest) := by
  obtain ⟨hdouble, hsingle⟩ := hrest
  unfold writeText
  rw [← String.ofList_toList (s := s), String.toList_ofList]
  cases hform : Quoting.of s.toList with
  | basic => exact quoted_basic hdouble s.toList
  | literal =>
      obtain ⟨hplain, hquote⟩ := Quoting.of_eq_literal hform
      exact quoted_literal hplain hquote hsingle
  | basicLines => exact quoted_basicLines hdouble s.toList
  | literalLines =>
      obtain ⟨hplain, hrun⟩ := Quoting.of_eq_literalLines hform
      exact quoted_literalLines hplain hrun hsingle

/-- A written text begins with a quote. -/
theorem exists_writeText (s : String) :
    ∃ c cs, writeText s = c :: cs ∧ (c = '"' ∨ c = '\x27') := by
  unfold writeText
  cases Quoting.of s.toList with
  | basic => exact ⟨'"', _, rfl, .inl rfl⟩
  | literal => exact ⟨'\x27', _, rfl, .inr rfl⟩
  | basicLines =>
      simp only [Quoting.write]
      split
      · exact ⟨'"', _, rfl, .inl rfl⟩
      · exact ⟨'"', _, rfl, .inl rfl⟩
  | literalLines =>
      simp only [Quoting.write]
      split
      · exact ⟨'\x27', _, rfl, .inr rfl⟩
      · exact ⟨'\x27', _, rfl, .inr rfl⟩

end ConnectionSecurity.Toml
