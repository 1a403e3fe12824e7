import ConnectionSecurity.Proofs.Toml.Quoted

/-!
# Names are read as they are written

A part of a name is written in one of three forms: bare, between double quotes with escapes, or
between single quotes. Each form has its reader, which gives the text back and stops right behind it
(`part_writePart`). A dotted name is read part by part (`name_writeName`).
-/

namespace ConnectionSecurity.Toml

variable {c : Char} {cs rest : List Char}

/-! ## Parts -/

theorem part_bare (hne : cs ≠ []) (hall : ∀ c ∈ cs, isBare c = true)
    (hrest : ∀ c, rest.head? = some c → isBare c = false) :
    part (cs ++ rest) = some (String.ofList cs, rest) := by
  have hnone : rest.takeWhile isBare = [] ∧ rest.dropWhile isBare = rest := by
    cases rest with
    | nil => exact ⟨rfl, rfl⟩
    | cons c rest => simp [hrest c rfl]
  have htake : (cs ++ rest).takeWhile isBare = cs := by
    rw [List.takeWhile_append_of_pos hall, hnone.1, List.append_nil]
  have hdrop : (cs ++ rest).dropWhile isBare = rest := by
    rw [List.dropWhile_append_of_pos hall, hnone.2]
  obtain ⟨c, cs, rfl⟩ := List.exists_cons_of_ne_nil hne
  have hc : isBare c = true := hall c List.mem_cons_self
  unfold part
  split
  next h =>
    cases h
    exact absurd hc (by decide)
  next h =>
    cases h
    exact absurd hc (by decide)
  next => rw [htake, hdrop, if_neg (by simp)]

theorem part_basic (s : String) (rest : List Char) :
    part (Quoting.basic.write s.toList ++ rest) = some (s, rest) := by
  simp [Quoting.write, part, basicRest_basicInside]

theorem part_literal {s : String} (hplain : ∀ c ∈ s.toList, isPlain c = true)
    (hquote : '\x27' ∉ s.toList) (rest : List Char) :
    part (Quoting.literal.write s.toList ++ rest) = some (s, rest) := by
  simp [Quoting.write, part, literalRest_append hplain hquote]

/-- **A part of a name is read back**, whatever its text is. -/
theorem part_writePart (s : String) (hrest : ∀ c, rest.head? = some c → isBare c = false) :
    part (writePart s ++ rest) = some (s, rest) := by
  unfold writePart
  simp only
  split
  next h =>
    simp only [Bool.and_eq_true, Bool.not_eq_true', List.isEmpty_eq_false_iff,
      List.all_eq_true] at h
    rw [part_bare h.1 h.2 hrest, String.ofList_toList]
  next =>
    split
    next => exact part_basic s rest
    next =>
      split
      next h =>
        simp only [Bool.and_eq_true, Bool.not_eq_true', List.any_eq_false, Bool.or_eq_true,
          beq_iff_eq, not_or, List.contains_eq_mem, decide_eq_false_iff_not] at h
        refine part_literal (fun c hc => ?_) h.2 rest
        obtain ⟨hcode, hbreak⟩ := h.1 c hc
        exact isPlain_of_not_needsCode (by simpa using hcode) hbreak
      next => exact part_basic s rest

/-- A character that a written name begins with. -/
def BeginsName (c : Char) : Prop := isBare c = true ∨ c = '"' ∨ c = '\x27'

theorem BeginsName.not_isSpace (h : BeginsName c) : isSpace c = false := by
  cases hspace : isSpace c with
  | false => rfl
  | true =>
      obtain rfl | rfl : c = ' ' ∨ c = '\t' := by simpa [isSpace] using hspace
      · exact absurd h (by unfold BeginsName; decide)
      · exact absurd h (by unfold BeginsName; decide)

theorem exists_writePart (s : String) : ∃ c cs, writePart s = c :: cs ∧ BeginsName c := by
  unfold writePart
  simp only
  split
  next h =>
    simp only [Bool.and_eq_true, Bool.not_eq_true', List.isEmpty_eq_false_iff,
      List.all_eq_true] at h
    obtain ⟨c, cs, hs⟩ := List.exists_cons_of_ne_nil h.1
    exact ⟨c, cs, hs, .inl (h.2 c (by simp [hs]))⟩
  next =>
    split
    next => exact ⟨'"', _, rfl, .inr (.inl rfl)⟩
    next =>
      split
      next => exact ⟨'\x27', _, rfl, .inr (.inr rfl)⟩
      next => exact ⟨'"', _, rfl, .inr (.inl rfl)⟩

/-! ## Chains -/

section Chain

variable {α : Type} {item : Reader α} {another : List Char → Option (List Char)}
  {cs cs' next : List Char} {a : α}

/-- A chain ends with the item that no other follows. -/
theorem chain_of_last (hitem : item cs = some (a, cs')) (hlast : another cs' = none) (fuel : Nat) :
    chain item another (fuel + 1) cs = some ([a], cs') := by
  rw [chain, hitem]
  simp only [hlast]

theorem chain_of_next (hitem : item cs = some (a, cs')) (hnext : another cs' = some next)
    (fuel : Nat) : chain item another (fuel + 1) cs =
      (chain item another fuel next).map fun r => (a :: r.1, r.2) := by
  rw [chain, hitem]
  simp only [hnext]

end Chain

/-! ## Dotted names -/

variable {p q : String} {ps : List String}

/-- What follows a dot, if one is next. -/
def afterDot (cs : List Char) : Option (List Char) :=
  match skipSpace cs with
  | '.' :: cs => some (skipSpace cs)
  | _ => none

theorem name_eq (cs : List Char) : name cs =
    (chain part afterDot cs.length cs).bind fun (parts, cs) =>
      if parts.length ≤ partLimit then some (parts, skipSpace cs) else none := rfl

theorem writeName_singleton (p : String) : writeName [p] = writePart p := by
  simp [writeName, List.intercalate]

theorem writeName_cons_cons (p q : String) (ps : List String) :
    writeName (p :: q :: ps) = writePart p ++ '.' :: writeName (q :: ps) := by
  simp [writeName, List.intercalate]

theorem exists_writeName (p : String) (ps : List String) :
    ∃ c cs, writeName (p :: ps) = c :: cs ∧ BeginsName c := by
  obtain ⟨c, cs, hp, hc⟩ := exists_writePart p
  cases ps with
  | nil => exact ⟨c, cs, by rw [writeName_singleton, hp], hc⟩
  | cons q ps => exact ⟨c, _, by rw [writeName_cons_cons, hp, List.cons_append], hc⟩

theorem skipSpace_writeName (p : String) (ps : List String) (rest : List Char) :
    skipSpace (writeName (p :: ps) ++ rest) = writeName (p :: ps) ++ rest := by
  obtain ⟨c, cs, hname, hc⟩ := exists_writeName p ps
  simp [skipSpace, hname, hc.not_isSpace]

theorem length_lt_length_writeName (p : String) (ps : List String) :
    ps.length < (writeName (p :: ps)).length := by
  induction ps generalizing p with
  | nil =>
      obtain ⟨c, cs, hname, -⟩ := exists_writeName p []
      simp [hname]
  | cons q ps ih =>
      have hq := ih q
      rw [writeName_cons_cons, List.length_append, List.length_cons, List.length_cons]
      omega

theorem chain_writeName {fuel : Nat} (hfuel : ps.length < fuel)
    (hbare : ∀ c, rest.head? = some c → isBare c = false) (hdot : afterDot rest = none) :
    chain part afterDot fuel (writeName (p :: ps) ++ rest) = some (p :: ps, rest) := by
  induction ps generalizing p fuel with
  | nil =>
      obtain ⟨fuel, rfl⟩ : ∃ n, fuel = n + 1 := ⟨fuel - 1, by omega⟩
      rw [writeName_singleton]
      exact chain_of_last (part_writePart p hbare) hdot fuel
  | cons q ps ih =>
      obtain ⟨fuel, rfl⟩ : ∃ n, fuel = n + 1 := ⟨fuel - 1, by omega⟩
      have hnext : afterDot ('.' :: (writeName (q :: ps) ++ rest)) =
          some (writeName (q :: ps) ++ rest) := by
        show some (skipSpace (writeName (q :: ps) ++ rest)) = _
        rw [skipSpace_writeName]
      have hdot' : ∀ c, ('.' :: (writeName (q :: ps) ++ rest)).head? = some c →
          isBare c = false := by
        intro c hc
        cases hc
        decide
      rw [writeName_cons_cons, List.append_assoc, List.cons_append,
        chain_of_next (part_writePart p hdot') hnext, ih (by simpa using hfuel)]
      rfl

/-- **A dotted name is read back**, together with the blanks behind it. -/
theorem name_writeName (hlimit : ps.length < partLimit)
    (hbare : ∀ c, rest.head? = some c → isBare c = false) (hdot : afterDot rest = none) :
    name (writeName (p :: ps) ++ rest) = some (p :: ps, skipSpace rest) := by
  have hlength := length_lt_length_writeName p ps
  have hfuel : ps.length < (writeName (p :: ps) ++ rest).length := by
    rw [List.length_append]
    omega
  rw [name_eq, chain_writeName hfuel hbare hdot, Option.bind_some]
  exact if_pos hlimit

end ConnectionSecurity.Toml
