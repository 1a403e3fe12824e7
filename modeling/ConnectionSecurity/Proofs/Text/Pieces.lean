import Mathlib.Data.List.TakeWhile
import ConnectionSecurity.Text.Blank
import ConnectionSecurity.Text.Split

/-!
# Pieces of a text

A text that is split at its separators falls into the pieces it was put together from. Blanks around
a piece are trimmed off, so words that are put together with a bar and blanks between them are found
again (`map_trimmed_splitOnP`).
-/

namespace ConnectionSecurity.Text

/-! ## Splitting -/

theorem splitOnP_eq {α : Type} (p : α → Bool) (xs : List α) :
    splitOnP p xs = xs.splitOnP p := by
  induction xs with
  | nil => rfl
  | cons x xs ih =>
      rw [splitOnP, ih, List.splitOnP_cons_eq_if_modifyHead]
      cases h : xs.splitOnP p with
      | nil => exact absurd h (List.splitOnP_ne_nil p xs)
      | cons y ys => rfl

theorem of_mem_splitOnP {α : Type} {p : α → Bool} {xs part : List α}
    (h : part ∈ splitOnP p xs) : ∀ x ∈ part, p x = false ∧ x ∈ xs := by
  induction xs generalizing part with
  | nil =>
      obtain rfl := List.mem_singleton.1 h
      exact nofun
  | cons y ys ih =>
      unfold splitOnP at h
      have hlater : ∀ part ∈ splitOnP p ys, ∀ x ∈ part, p x = false ∧ x ∈ y :: ys :=
        fun part hpart x hx => ⟨(ih hpart x hx).1, List.mem_cons_of_mem y (ih hpart x hx).2⟩
      split at h
      next =>
        rcases List.mem_cons.1 h with rfl | h
        · exact nofun
        · exact hlater part h
      next hy =>
        have hfirst : p y = false ∧ y ∈ y :: ys := ⟨by simpa using hy, List.mem_cons_self⟩
        split at h
        next =>
          obtain rfl := List.mem_singleton.1 h
          intro x hx
          obtain rfl := List.mem_singleton.1 hx
          exact hfirst
        next w ws hsplit =>
          rcases List.mem_cons.1 h with rfl | h
          · intro x hx
            rcases List.mem_cons.1 hx with rfl | hx
            · exact hfirst
            · exact hlater w (hsplit ▸ List.mem_cons_self) x hx
          · exact hlater part (hsplit ▸ List.mem_cons_of_mem w h)


/-- Behind a separator at the end there is nothing. -/
theorem getLast?_splitOnP {α : Type} {p : α → Bool} {xs : List α} {x : α}
    (hlast : xs.getLast? = some x) (hx : p x = true) :
    (splitOnP p xs).getLast? = some [] := by
  obtain ⟨ys, rfl⟩ := List.getLast?_eq_some_iff.1 hlast
  rw [splitOnP_eq, List.splitOnP_append_cons ys [] hx, List.getLast?_append]
  rfl

/-! ## Trimming -/

/-- Blanks around a word are trimmed off. -/
theorem trimmed_append {before word after : List Char} (hbefore : ∀ c ∈ before, isBlank c = true)
    (hword : ∀ c ∈ word, isBlank c = false) (hafter : ∀ c ∈ after, isBlank c = true) :
    trimmed (before ++ word ++ after) = word := by
  have hdrop {cs : List Char} (hcs : ∀ c ∈ cs, isBlank c = true) (rest : List Char) :
      (cs ++ rest).dropWhile isBlank = rest.dropWhile isBlank :=
    List.dropWhile_append_of_pos hcs
  have hkeep {cs : List Char} (hcs : ∀ c ∈ cs, isBlank c = false) (rest : List Char)
      (hne : cs ≠ []) : (cs ++ rest).dropWhile isBlank = cs ++ rest := by
    obtain ⟨c, cs, rfl⟩ := List.exists_cons_of_ne_nil hne
    rw [List.cons_append, List.dropWhile_cons_of_neg (by simp [hcs c List.mem_cons_self])]
  unfold trimmed
  rw [List.append_assoc, hdrop hbefore]
  by_cases hne : word = []
  · subst hne
    have hall := hdrop hafter []
    rw [List.append_nil] at hall
    rw [List.nil_append, hall]
    rfl
  · rw [hkeep hword after hne, List.reverse_append, hdrop (by simpa using hafter)]
    have hreverse : (word.reverse ++ []).dropWhile isBlank = word.reverse ++ [] :=
      hkeep (by simpa using hword) [] (by simpa using hne)
    rw [List.append_nil] at hreverse
    rw [hreverse, List.reverse_reverse]

/-- What is trimmed away altogether is blank. -/
theorem isBlank_of_trimmed_eq_nil {cs : List Char} (h : trimmed cs = []) :
    ∀ c ∈ cs, isBlank c = true := by
  have hinner : cs.dropWhile isBlank = [] := by
    unfold trimmed at h
    rw [List.reverse_eq_nil_iff, List.dropWhile_eq_nil_iff] at h
    cases hdrop : cs.dropWhile isBlank with
    | nil => rfl
    | cons c rest =>
        have hc : isBlank c = true := h c (by simp [hdrop])
        have hnot : ¬isBlank c = true := by
          have hhead := List.head?_dropWhile_not isBlank cs
          rw [hdrop] at hhead
          simpa using hhead
        exact absurd hc hnot
  exact List.dropWhile_eq_nil_iff.1 hinner

/-- A character of a word that stands between separators. -/
def IsWordChar (sep : Char) (c : Char) : Prop := isBlank c = false ∧ c ≠ sep

/-- **Words with a separator and blanks between them are found again.** -/
theorem map_trimmed_splitOnP {sep : Char} (hsep : sep ≠ ' ') {words : List (List Char)}
    (hne : words ≠ []) (hwords : ∀ w ∈ words, ∀ c ∈ w, IsWordChar sep c) :
    (splitOnP (· == sep) ([' ', sep, ' '].intercalate words)).map trimmed = words := by
  -- In front of all words but the first there is a blank.
  suffices h : ∀ before : List Char, (∀ c ∈ before, c = ' ') →
      (splitOnP (· == sep) (before ++ [' ', sep, ' '].intercalate words)).map trimmed = words from
    h [] (fun c hc => by cases hc)
  induction words with
  | nil => exact absurd rfl hne
  | cons w words ih =>
      intro before hbefore
      obtain ⟨hw, hwords⟩ := List.forall_mem_cons.1 hwords
      have hblank : ∀ c ∈ before, isBlank c = true := by
        intro c hc
        obtain rfl := hbefore c hc
        decide
      have hapart : ∀ c ∈ before ++ w, (c == sep) = false := by
        intro c hc
        rcases List.mem_append.1 hc with hc | hc
        · obtain rfl := hbefore c hc
          simpa using Ne.symm hsep
        · simpa using (hw c hc).2
      have hplain : ∀ c ∈ w, isBlank c = false := fun c hc => (hw c hc).1
      cases words with
      | nil =>
          have htrimmed : trimmed (before ++ w ++ []) = w :=
            trimmed_append hblank hplain (fun c hc => by cases hc)
          rw [List.append_nil] at htrimmed
          rw [splitOnP_eq, List.intercalate_singleton, List.splitOnP_eq_singleton hapart,
            List.map_singleton, htrimmed]
      | cons v words =>
          have htext : before ++ [' ', sep, ' '].intercalate (w :: v :: words) =
              (before ++ w ++ [' ']) ++
                sep :: ([' '] ++ [' ', sep, ' '].intercalate (v :: words)) := by
            simp
          have hfirst : ∀ c ∈ before ++ w ++ [' '], (c == sep) = false := by
            intro c hc
            rcases List.mem_append.1 hc with hc | hc
            · exact hapart c hc
            · obtain rfl := List.mem_singleton.1 hc
              simpa using Ne.symm hsep
          have hrest := ih (List.cons_ne_nil v words) hwords [' '] (by simp)
          rw [splitOnP_eq] at hrest
          rw [splitOnP_eq, htext, List.splitOnP_append_cons_of_forall_mem hfirst sep (by simp),
            List.map_cons, hrest, trimmed_append hblank hplain (by simp; decide)]

end ConnectionSecurity.Text
