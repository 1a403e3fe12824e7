import ConnectionSecurity.Proofs.Toml.Document
import ConnectionSecurity.Proofs.Toml.Number

/-!
# Values are read as they are written

A value that stands behind an equals sign is a text, an integer, a truth value, or an array of such
(`Inline`). Each is read back from where it ends, be it the end of the line or the next item of an
array (`value_writeValue`). An array is written on one line if it has one item, and else with a line
and a comma for each; both ways the reader of lists finds the items again (`listed_items`).
-/

namespace ConnectionSecurity.Toml

variable {α : Type} {rest : List Char} {depth : Nat} {v : Value} {items : List Value}

/-- A value that needs no header of its own, with arrays nested at most so deep. -/
inductive Inline : Nat → Value → Prop
  | text (depth : Nat) (s : String) : Inline depth (.text s)
  | integer (depth : Nat) (n : Int) (h : inIntegerRange n = true) : Inline depth (.integer n)
  | boolean (depth : Nat) (b : Bool) : Inline depth (.boolean b)
  | array (depth : Nat) (items : List Value) (h : ∀ v ∈ items, Inline depth v) :
      Inline (depth + 1) (.array items)

/-- What may stand behind a value: a line break, the next item, or the end of an array. -/
def EndsValue (rest : List Char) : Prop :=
  ∃ c cs, rest = c :: cs ∧ (c = '\n' ∨ c = ',' ∨ c = ']')

/-- What a written value begins with. -/
def BeginsValue (c : Char) : Prop :=
  isSpace c = false ∧ c ≠ '\n' ∧ c ≠ '\r' ∧ c ≠ '#' ∧ c ≠ ',' ∧ c ≠ ']'

theorem BeginsValue.skipGap {c : Char} (h : BeginsValue c) (cs : List Char) :
    skipGap false (c :: cs) = some (c :: cs) := by
  obtain ⟨hspace, hline, hreturn, hcomment, -, -⟩ := h
  simp [Toml.skipGap, hspace, hline, hreturn, hcomment]

theorem beginsValue_of_isToken {c : Char} (h : isToken c = true) : BeginsValue c := by
  simp only [isToken, Bool.not_eq_true', List.contains_eq_mem, decide_eq_false_iff_not,
    List.mem_cons, not_or] at h
  obtain ⟨-, hcomma, -, hclose, -, -, hcomment, hblank, htab, hline, hreturn, -⟩ := h
  exact ⟨by simp [isSpace, hblank, htab], hline, hreturn, hcomment, hcomma, hclose⟩

/-! ## Values without quotes -/

theorem value_of_token {c : Char} {cs : List Char} (hc : isToken c = true) (hdouble : c ≠ '"')
    (hsingle : c ≠ '\x27') (depth : Nat) : value depth (c :: cs) = scalar (c :: cs) := by
  have hlist : c ≠ '[' := by
    rintro rfl
    cases hc
  have htable : c ≠ '\x7b' := by
    rintro rfl
    cases hc
  cases depth with
  | zero =>
      unfold value
      split
      next heq => exact absurd (List.cons.inj heq).1 hlist
      next heq => exact absurd (List.cons.inj heq).1 htable
      next heq => exact absurd (List.cons.inj heq).1 hdouble
      next heq => exact absurd (List.cons.inj heq).1 hsingle
      next => rfl
  | succ depth =>
      unfold value
      split
      next heq => exact absurd (List.cons.inj heq).1 hlist
      next heq => exact absurd (List.cons.inj heq).1 htable
      next heq => exact absurd (List.cons.inj heq).1 hdouble
      next heq => exact absurd (List.cons.inj heq).1 hsingle
      next => rfl

/-- A token is read up to where its value ends. -/
theorem scalar_token {token : List Char} (htoken : ∀ c ∈ token, isToken c = true)
    (hrest : EndsValue rest) : scalar (token ++ rest) = (scalar? token).map fun v => (v, rest) := by
  obtain ⟨c, cs, rfl, hc⟩ := hrest
  have hstop : isToken c = false := by
    rcases hc with rfl | rfl | rfl <;> decide
  have htake : (token ++ c :: cs).takeWhile isToken = token := by
    rw [List.takeWhile_append_of_pos htoken, List.takeWhile_cons_of_neg (by simp [hstop]),
      List.append_nil]
  have hdrop : (token ++ c :: cs).dropWhile isToken = c :: cs := by
    rw [List.dropWhile_append_of_pos htoken, List.dropWhile_cons_of_neg (by simp [hstop])]
  have hblank : c ≠ ' ' := by
    rcases hc with rfl | rfl | rfl <;> decide
  unfold scalar
  simp only [htake, hdrop]
  split
  next heq => exact absurd (List.cons.inj heq).1 hblank
  next => rfl

theorem isToken_writeInteger (n : Int) : ∀ c ∈ writeInteger n, isToken c = true := by
  have hdigit : ∀ d : Fin 10, isToken d.val.digitChar = true := by decide
  have hdigits := forall_mem_toDigits (P := fun c => isToken c = true) (show 1 < 10 by decide)
    (fun d hd => hdigit ⟨d, hd⟩) n.natAbs
  unfold writeInteger
  split
  · exact List.forall_mem_cons.2 ⟨rfl, hdigits⟩
  · exact hdigits

theorem scalar?_writeInteger {n : Int} (hn : inIntegerRange n = true) :
    scalar? (writeInteger n) = some (.integer n) := by
  have hinteger := integer?_writeInteger hn
  have htrue : writeInteger n ≠ ['t', 'r', 'u', 'e'] := by
    intro h
    rw [h] at hinteger
    cases hinteger
  have hfalse : writeInteger n ≠ ['f', 'a', 'l', 's', 'e'] := by
    intro h
    rw [h] at hinteger
    cases hinteger
  rw [scalar?, if_neg (by simpa using htrue), if_neg (by simpa using hfalse), hinteger]

theorem exists_writeInteger (n : Int) :
    ∃ c cs, writeInteger n = c :: cs ∧ (c = '-' ∨ c.isDigit = true) := by
  unfold writeInteger
  split
  · exact ⟨'-', _, rfl, .inl rfl⟩
  · obtain ⟨c, cs, hc⟩ :=
      List.exists_cons_of_ne_nil (Nat.toDigits_ne_nil (n := n.natAbs) (b := 10))
    refine ⟨c, cs, hc, .inr ?_⟩
    refine Nat.isDigit_of_mem_toDigits (b := 10) (n := n.natAbs) (by decide) (by decide) ?_
    rw [hc]
    exact List.mem_cons_self

theorem value_writeInteger {n : Int} (hn : inIntegerRange n = true) (hrest : EndsValue rest)
    (depth : Nat) : value depth (writeInteger n ++ rest) = some (.integer n, rest) := by
  have htokens := isToken_writeInteger n
  obtain ⟨c, cs, hc, hfirst⟩ := exists_writeInteger n
  have hquotes : c ≠ '"' ∧ c ≠ '\x27' := by
    rcases hfirst with rfl | hdigit
    · decide
    · refine ⟨?_, ?_⟩ <;> rintro rfl <;> cases hdigit
  have hscalar : value depth (writeInteger n ++ rest) = scalar (writeInteger n ++ rest) := by
    rw [hc] at htokens ⊢
    exact value_of_token (htokens c List.mem_cons_self) hquotes.1 hquotes.2 depth
  rw [hscalar, scalar_token htokens hrest, scalar?_writeInteger hn]
  rfl

theorem value_writeBoolean (b : Bool) (hrest : EndsValue rest) (depth : Nat) :
    value depth (writeValue (.boolean b) ++ rest) = some (.boolean b, rest) := by
  cases b with
  | true =>
      have htokens : ∀ c ∈ ['t', 'r', 'u', 'e'], isToken c = true :=
        List.all_eq_true.1 rfl
      show value depth ('t' :: (['r', 'u', 'e'] ++ rest)) = _
      rw [value_of_token rfl (by decide) (by decide)]
      exact scalar_token htokens hrest
  | false =>
      have htokens : ∀ c ∈ ['f', 'a', 'l', 's', 'e'], isToken c = true :=
        List.all_eq_true.1 rfl
      show value depth ('f' :: (['a', 'l', 's', 'e'] ++ rest)) = _
      rw [value_of_token rfl (by decide) (by decide)]
      exact scalar_token htokens hrest

/-! ## Texts -/

theorem value_writeText (s : String) (hrest : EndsValue rest) (depth : Nat) :
    value depth (writeText s ++ rest) = some (.text s, rest) := by
  have hquoted : quoted (writeText s ++ rest) = some (s, rest) := by
    apply quoted_writeText
    obtain ⟨c, cs, rfl, hc⟩ := hrest
    rcases hc with rfl | rfl | rfl <;> exact ⟨by simp, by simp⟩
  have hvalue : value depth (writeText s ++ rest) =
      (quoted (writeText s ++ rest)).map fun r => (.text r.1, r.2) := by
    obtain ⟨c, cs, hs, rfl | rfl⟩ := exists_writeText s
    · rw [hs]
      cases depth <;> rfl
    · rw [hs]
      cases depth <;> rfl
  rw [hvalue, hquoted]
  rfl

/-! ## Lists -/

/-- The reader of one more item in a list that ends with a character. -/
def anotherItem (close : Char) (cs : List Char) : Option (List Char) := do
  match ← skipGap false cs with
  | ',' :: cs =>
    match ← skipGap false cs with
    | c :: cs => if c == close then none else some (c :: cs)
    | [] => none
  | _ => none

theorem listed_of_chain {item : Reader α} {close c : Char} {cs cs' last : List Char}
    {items : List α} (hgap : skipGap false cs = some (c :: cs')) (hc : c ≠ close)
    (hchain : chain item (anotherItem close) (c :: cs').length (c :: cs') = some (items, last))
    (hlast : last = close :: rest ∧ close ≠ ',' ∧ skipGap false last = some last ∨
      ∃ gap, last = ',' :: gap ∧ skipGap false gap = some (close :: rest)) :
    listed item close cs = some (items, rest) := by
  unfold listed
  simp only [hgap, Option.bind_eq_bind, Option.bind_some]
  rw [if_neg (by simpa using hc)]
  show (chain item (anotherItem close) (c :: cs').length (c :: cs')).bind _ = _
  rw [hchain, Option.bind_some]
  rcases hlast with ⟨rfl, hcomma, hgap⟩ | ⟨gap, rfl, hgap⟩
  · simp only [hgap, Option.bind_some]
    split
    next heq => exact absurd (List.cons.inj heq).1 hcomma
    next => simp
  · have hcomma : skipGap false (',' :: gap) = some (',' :: gap) := by
      simp [skipGap, isSpace]
    simp [hcomma, hgap]

/-! ## Arrays -/

/-- A value is read back from where it ends. -/
structure ReadsBack (depth : Nat) (v : Value) : Prop where
  begins : ∃ c cs, writeValue v = c :: cs ∧ BeginsValue c
  value_eq : ∀ {rest}, EndsValue rest → value depth (writeValue v ++ rest) = some (v, rest)

theorem skipGap_item (h : ReadsBack depth v) (rest : List Char) :
    skipGap false ('\n' :: ([' ', ' ', ' ', ' '] ++ writeValue v ++ rest)) =
      some (writeValue v ++ rest) := by
  obtain ⟨c, cs, hc, hbegins⟩ := h.begins
  have hgap := hbegins.skipGap (cs ++ rest)
  rw [hc]
  simpa [skipGap, isSpace] using hgap

theorem anotherItem_item (h : ReadsBack depth v) (rest : List Char) :
    anotherItem ']' (',' :: '\n' :: ([' ', ' ', ' ', ' '] ++ writeValue v ++ rest)) =
      some (writeValue v ++ rest) := by
  have hgap := skipGap_item h rest
  obtain ⟨c, cs, hc, hbegins⟩ := h.begins
  have hclose : c ≠ ']' := hbegins.2.2.2.2.2
  have hcomma (cs : List Char) : skipGap false (',' :: cs) = some (',' :: cs) := by
    simp [skipGap, isSpace]
  rw [hc, List.cons_append] at hgap ⊢
  simp only [anotherItem, hcomma, hgap, Option.bind_eq_bind, Option.bind_some]
  exact if_neg (by simpa using hclose)

/-- Items that are each on a line of their own are read one after the other. -/
theorem chain_writeItems {fuel : Nat} (hfuel : items.length < fuel) (hv : ReadsBack depth v)
    (hitems : ∀ w ∈ items, ReadsBack depth w) (rest : List Char) :
    chain (value depth) (anotherItem ']') fuel
      (writeValue v ++ ([',', '\n'] ++ (writeItems items ++ ']' :: rest))) =
      some (v :: items, ',' :: '\n' :: ']' :: rest) := by
  obtain ⟨fuel, rfl⟩ : ∃ n, fuel = n + 1 := ⟨fuel - 1, by omega⟩
  have hcomma (items : List Value) : EndsValue ([',', '\n'] ++ (writeItems items ++ ']' :: rest)) :=
    ⟨',', _, rfl, .inr (.inl rfl)⟩
  induction items generalizing v fuel with
  | nil =>
      have hnone : anotherItem ']' (',' :: '\n' :: ']' :: rest) = none := by
        simp [anotherItem, skipGap, isSpace]
      exact chain_of_last (hv.value_eq (hcomma [])) hnone fuel
  | cons w items ih =>
      obtain ⟨hw, hitems⟩ := List.forall_mem_cons.1 hitems
      have hnext : [',', '\n'] ++ (writeItems (w :: items) ++ ']' :: rest) =
          ',' :: '\n' :: ([' ', ' ', ' ', ' '] ++ writeValue w ++
            ([',', '\n'] ++ (writeItems items ++ ']' :: rest))) := by
        simp [writeItems]
      obtain ⟨fuel, rfl⟩ : ∃ n, fuel = n + 1 := ⟨fuel - 1, by
        rw [List.length_cons] at hfuel
        omega⟩
      have hread := hv.value_eq (hcomma (w :: items))
      rw [hnext] at hread ⊢
      rw [chain_of_next hread (anotherItem_item hw _), ih hw hitems fuel (by simpa using hfuel)]
      rfl

theorem length_le_length_writeItems (items : List Value) :
    items.length ≤ (writeItems items).length := by
  induction items with
  | nil => exact Nat.zero_le _
  | cons v items ih =>
      rw [writeItems]
      simp only [List.length_append, List.length_cons, List.length_nil]
      omega

/-- **The items of an array are read back**, however many there are. -/
theorem listed_items (hitems : ∀ v ∈ items, ReadsBack depth v) :
    ∃ cs, writeValue (.array items) = '[' :: cs ∧
      ∀ rest, listed (value depth) ']' (cs ++ rest) = some (items, rest) := by
  cases items with
  | nil =>
      refine ⟨[']'], rfl, fun rest => ?_⟩
      simp [listed, skipGap, isSpace]
  | cons v items =>
      obtain ⟨hv, hitems⟩ := List.forall_mem_cons.1 hitems
      obtain ⟨c, cs, hc, hbegins⟩ := hv.begins
      have hclose : c ≠ ']' := hbegins.2.2.2.2.2
      cases items with
      | nil =>
          refine ⟨writeValue v ++ [']'], rfl, fun rest => ?_⟩
          have hend : skipGap false (']' :: rest) = some (']' :: rest) := by
            simp [skipGap, isSpace]
          have hclosing : EndsValue (']' :: rest) := ⟨']', rest, rfl, .inr (.inr rfl)⟩
          have hread := hv.value_eq hclosing
          have hnone : anotherItem ']' (']' :: rest) = none := by
            simp [anotherItem, skipGap, isSpace]
          have htext : writeValue v ++ [']'] ++ rest = c :: (cs ++ ']' :: rest) := by
            rw [hc]
            simp
          rw [hc, List.cons_append] at hread
          have hchain : chain (value depth) (anotherItem ']') (c :: (cs ++ ']' :: rest)).length
              (c :: (cs ++ ']' :: rest)) = some ([v], ']' :: rest) := by
            rw [List.length_cons]
            exact chain_of_last hread hnone _
          exact listed_of_chain (by rw [htext, hbegins.skipGap]) hclose hchain
            (.inl ⟨rfl, by decide, hend⟩)
      | cons w items =>
          refine ⟨'\n' :: (writeItems (v :: w :: items) ++ [']']), rfl, fun rest => ?_⟩
          have htext : '\n' :: (writeItems (v :: w :: items) ++ [']']) ++ rest =
              '\n' :: ([' ', ' ', ' ', ' '] ++ writeValue v ++
                ([',', '\n'] ++ (writeItems (w :: items) ++ ']' :: rest))) := by
            simp [writeItems]
          have hgap := skipGap_item hv ([',', '\n'] ++ (writeItems (w :: items) ++ ']' :: rest))
          have hfuel : (w :: items).length < (writeValue v ++
              ([',', '\n'] ++ (writeItems (w :: items) ++ ']' :: rest))).length := by
            have hlength := length_le_length_writeItems (w :: items)
            simp only [List.length_append, List.length_cons, List.length_nil] at hlength ⊢
            omega
          have hchain := chain_writeItems hfuel hv hitems rest
          have hend : skipGap false ('\n' :: ']' :: rest) = some (']' :: rest) := by
            simp [skipGap, isSpace]
          rw [hc, List.cons_append] at hgap hchain
          rw [htext, hc]
          exact listed_of_chain hgap hclose hchain (.inr ⟨'\n' :: ']' :: rest, rfl, hend⟩)

/-! ## All values -/

/-- **A value is read back**, from where the next line or item begins. -/
theorem Inline.readsBack (h : Inline depth v) : ReadsBack depth v := by
  induction h with
  | text depth s =>
      refine ⟨?_, fun hrest => value_writeText s hrest depth⟩
      obtain ⟨c, cs, hs, hc⟩ := exists_writeText s
      refine ⟨c, cs, hs, ?_⟩
      rcases hc with rfl | rfl <;> unfold BeginsValue <;> decide
  | integer depth n hn =>
      refine ⟨?_, fun hrest => value_writeInteger hn hrest depth⟩
      obtain ⟨c, cs, hs, -⟩ := exists_writeInteger n
      refine ⟨c, cs, hs, beginsValue_of_isToken (isToken_writeInteger n c ?_)⟩
      rw [hs]
      exact List.mem_cons_self
  | boolean depth b =>
      refine ⟨?_, fun hrest => value_writeBoolean b hrest depth⟩
      cases b with
      | true => exact ⟨'t', _, rfl, beginsValue_of_isToken rfl⟩
      | false => exact ⟨'f', _, rfl, beginsValue_of_isToken rfl⟩
  | array depth items _ ih =>
      obtain ⟨cs, hcs, hlisted⟩ := listed_items ih
      refine ⟨⟨'[', cs, hcs, by unfold BeginsValue; decide⟩, fun {rest} _ => ?_⟩
      rw [hcs]
      show (listed (value depth) ']' (cs ++ rest)).map _ = _
      rw [hlisted]
      rfl

end ConnectionSecurity.Toml
