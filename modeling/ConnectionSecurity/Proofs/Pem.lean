import ConnectionSecurity.Pem

/-!
# Where a block opens

A mark that is seen stands in the text as it is, although not every mark that stands there is seen
(`cut_eq_some`). So the line that a block opens with occurs in the file (`opening_of_mem_blocks?`).
-/

namespace ConnectionSecurity

/-! ## Runs of bytes -/

namespace Bytes

theorem hasRun_iff {needle b : Bytes} : hasRun needle b = true ↔ needle <:+: b := by
  induction b with
  | nil => rw [hasRun, List.isEmpty_iff, List.infix_nil]
  | cons x b ih =>
      rw [hasRun, Bool.or_eq_true, List.isPrefixOf_iff_prefix, ih, List.infix_cons_iff]

theorem ofText_append (s t : String) : ofText (s ++ t) = ofText s ++ ofText t := by
  simp [ofText]

/-- A byte string that reads as a text is its encoding. -/
theorem ofText_of_text? {b : Bytes} {s : String} (h : b.text? = some s) : ofText s = b := by
  rw [text?, String.fromUTF8?] at h
  split at h
  · cases h
    rfl
  · cases h

end Bytes

namespace Pem

variable {mark left taken b before after : Bytes} {block : Block} {blocks : List Block}

/-! ## Marks -/

/-- What a search has behind it ends in the part of the mark that was matched. -/
theorem seek_eq_some (h : seek mark left taken b = some (before, after)) (matched passed : Bytes)
    (hmark : mark = matched ++ left) (htaken : taken.reverse = passed ++ matched) :
    taken.reverse ++ b = before ++ mark ++ after := by
  induction b generalizing left taken matched passed with
  | nil => cases h
  | cons x b ih =>
      cases left with
      | nil => cases h
      | cons m left =>
          rw [seek] at h
          split at h
          next hx =>
            obtain rfl : x = m := by simpa using hx
            split at h
            next hlast =>
              obtain rfl : left = [] := List.isEmpty_iff.1 hlast
              cases h
              have hlength : mark.length - 1 = matched.length := by simp [hmark]
              have hbefore : (taken.drop (mark.length - 1)).reverse = passed := by
                have htaken' : taken = matched.reverse ++ passed.reverse := by
                  rw [← List.reverse_append, ← htaken, List.reverse_reverse]
                rw [hlength, htaken', ← List.length_reverse, List.drop_left, List.reverse_reverse]
              rw [hbefore, htaken, hmark]
              simp
            next =>
              have hstep := ih h (matched ++ [x]) passed (by simpa using hmark) (by simp [htaken])
              simpa using hstep
          next =>
            have hstep := ih h [] (x :: taken).reverse rfl (by simp)
            simpa using hstep

/-- What stands on both sides of a mark that was seen. -/
theorem cut_eq_some {text : String} (h : cut text b = some (before, after)) :
    b = before ++ Bytes.ofText text ++ after :=
  seek_eq_some h [] [] rfl rfl

/-! ## Blocks -/

/-- A block opens with its label, and what follows it is the end of the file. -/
theorem opening_of_nextBlock? {raw : RawBlock} {rest : Bytes}
    (h : nextBlock? b = some (raw, rest)) :
    Bytes.ofText "-----BEGIN " ++ raw.label ++ Bytes.ofText "-----" <:+: b ∧ rest <:+ b := by
  simp only [nextBlock?, Option.bind_eq_bind, Option.bind_eq_some_iff] at h
  obtain ⟨⟨preamble, b₁⟩, hbegin, ⟨label, b₂⟩, hlabel, ⟨inside, b₃⟩, hend, ⟨closing, b₄⟩, hclosing,
    h⟩ := h
  cases h
  have h₁ : b = preamble ++ Bytes.ofText "-----BEGIN " ++ b₁ := cut_eq_some hbegin
  have h₂ : b₁ = label ++ Bytes.ofText "-----" ++ b₂ := cut_eq_some hlabel
  have h₃ : b₂.dropWhile isGapByte = inside ++ Bytes.ofText "-----END " ++ b₃ := cut_eq_some hend
  have h₄ : b₃ = closing ++ Bytes.ofText "-----" ++ b₄ := cut_eq_some hclosing
  constructor
  · refine ⟨preamble, b₂, ?_⟩
    rw [h₁, h₂]
    simp only [List.append_assoc]
  · have hb₁ : b₁ <:+ b := h₁ ▸ List.suffix_append _ _
    have hb₂ : b₂ <:+ b₁ := h₂ ▸ List.suffix_append _ _
    have hb₃ : b₃ <:+ b₂ := (h₃ ▸ List.suffix_append _ _).trans (List.dropWhile_suffix _)
    have hb₄ : b₄ <:+ b₃ := h₄ ▸ List.suffix_append _ _
    exact (List.dropWhile_suffix _).trans (hb₄.trans (hb₃.trans (hb₂.trans hb₁)))

theorem opening_of_mem_rawBlocks {fuel : Nat} {raw : RawBlock} (h : raw ∈ rawBlocks fuel b) :
    Bytes.ofText "-----BEGIN " ++ raw.label ++ Bytes.ofText "-----" <:+: b := by
  induction fuel generalizing b with
  | zero => cases h
  | succ fuel ih =>
      rw [rawBlocks] at h
      split at h
      next first rest hnext =>
        obtain ⟨hopening, hrest⟩ := opening_of_nextBlock? hnext
        rcases List.mem_cons.1 h with rfl | hmem
        · exact hopening
        · exact (ih hmem).trans hrest.isInfix
      · cases h

theorem exists_of_mapM_eq_some {α β : Type} {f : α → Option β} {xs : List α} {ys : List β} {y : β}
    (h : xs.mapM f = some ys) (hy : y ∈ ys) : ∃ x ∈ xs, f x = some y := by
  induction xs generalizing ys with
  | nil =>
      cases h
      cases hy
  | cons x xs ih =>
      simp only [List.mapM_cons, Option.bind_eq_bind, Option.bind_eq_some_iff] at h
      obtain ⟨first, hfirst, more, hmore, h⟩ := h
      cases h
      rcases List.mem_cons.1 hy with rfl | hy
      · exact ⟨x, List.mem_cons_self, hfirst⟩
      · obtain ⟨q, hq, hmade⟩ := ih hmore hy
        exact ⟨q, List.mem_cons_of_mem x hq, hmade⟩

theorem label_of_decode? {raw : RawBlock} (h : raw.decode? = some block) :
    Bytes.ofText block.label = raw.label := by
  simp only [RawBlock.decode?, Option.bind_eq_bind, Option.bind_eq_some_iff] at h
  obtain ⟨label, hlabel, closingLabel, -, data, -, headers, -, h⟩ := h
  split at h
  · cases h
  · simp only [Option.bind_eq_some_iff] at h
    obtain ⟨_, -, content, -, h⟩ := h
    cases h
    exact Bytes.ofText_of_text? hlabel

/-- **The line that a block opens with** occurs in the file. -/
theorem opening_of_mem_blocks? (h : blocks? b = some blocks) (hblock : block ∈ blocks) :
    Bytes.ofText ("-----BEGIN " ++ block.label ++ "-----") <:+: b := by
  obtain ⟨raw, hraw, hdecoded⟩ := exists_of_mapM_eq_some h hblock
  rw [Bytes.ofText_append, Bytes.ofText_append, label_of_decode? hdecoded]
  exact opening_of_mem_rawBlocks hraw

end Pem

end ConnectionSecurity
