import ConnectionSecurity.Waiver.Store

/-!
# Handles that name stores

The stores of a pool may all have the same file behind them (`Behind`). Adding a store, copying a
handle and changing a store keep it so, and each is seen through exactly those handles that name the
store (`store?_add_of_lt`, `same_copy`, `store?_replace`).
-/

namespace ConnectionSecurity.Waiver.Pool

variable {p : Pool} {s : Store} {h k n : Nat} {path : Path}

/-- Every handle names a store, and every store has the same file behind it. -/
structure Behind (path : Path) (p : Pool) : Prop where
  named : ∀ h n : Nat, p.handles[h]? = some n → n < p.stores.size
  path : ∀ (n : Nat) (s : Store), p.stores[n]? = some s → s.path = some path

/-- Two handles name the same store. -/
def Same (p : Pool) (h k : Nat) : Prop := p.handles[h]? = p.handles[k]?

instance (p : Pool) (h k : Nat) : Decidable (p.Same h k) :=
  inferInstanceAs (Decidable (p.handles[h]? = p.handles[k]?))

theorem Same.store?_eq (hsame : p.Same h k) : p.store? h = p.store? k := by
  rw [store?, store?, hsame]

theorem store?_eq_some : p.store? h = some s ↔
    ∃ n : Nat, p.handles[h]? = some n ∧ p.stores[n]? = some s := by
  rw [store?, Option.bind_eq_some_iff]

theorem Behind.exists_store (hp : p.Behind path) (hh : h < p.handles.size) :
    ∃ s, p.store? h = some s := by
  have hn : p.handles[h]? = some p.handles[h] := Array.getElem?_eq_getElem hh
  exact ⟨_, store?_eq_some.2 ⟨_, hn, Array.getElem?_eq_getElem (hp.named _ _ hn)⟩⟩

theorem Behind.path_eq (hp : p.Behind path) (hs : p.store? h = some s) : s.path = some path := by
  obtain ⟨n, -, hn⟩ := store?_eq_some.1 hs
  exact hp.path n s hn

/-! ## A new store -/

theorem Behind.add (hp : p.Behind path) (hs : s.path = some path) : (p.add s).Behind path where
  named h n hn := by
    simp only [Pool.add, Array.getElem?_push, Array.size_push] at hn ⊢
    split at hn
    next =>
      obtain rfl := Option.some.inj hn
      exact Nat.lt_succ_self _
    next => exact Nat.lt_succ_of_lt (hp.named h n hn)
  path n s' hn := by
    simp only [Pool.add, Array.getElem?_push] at hn
    split at hn
    next =>
      obtain rfl := Option.some.inj hn
      exact hs
    next => exact hp.path n s' hn

theorem store?_add_of_lt (hp : p.Behind path) (hk : k < p.handles.size) (s : Store) :
    (p.add s).store? k = p.store? k := by
  have hn : p.handles[k]? = some p.handles[k] := Array.getElem?_eq_getElem hk
  have hinside := hp.named _ _ hn
  simp only [store?, Pool.add, Array.getElem?_push, if_neg (Nat.ne_of_lt hk), hn, Option.bind_some,
    if_neg (Nat.ne_of_lt hinside)]

theorem store?_add_size (p : Pool) (s : Store) : (p.add s).store? p.handles.size = some s := by
  simp [add, store?]

/-- Each handle names a store of its own. -/
def Own (p : Pool) : Prop := ∀ h k, h < p.handles.size → p.Same k h → k = h

/-- A store that is added is named by the new handle alone. -/
theorem Behind.own_add (hp : p.Behind path) (hown : p.Own) (s : Store) : (p.add s).Own := by
  have hold : ∀ k, p.handles[k]? ≠ some p.stores.size := fun k hk =>
    Nat.lt_irrefl _ (hp.named k _ hk)
  intro h k hh hsame
  simp only [Same, Pool.add, Array.getElem?_push, Array.size_push] at hh hsame
  split at hsame
  next hk =>
    split at hsame
    next hh' => rw [hk, hh']
    next => exact absurd hsame.symm (hold h)
  next =>
    split at hsame
    next => exact absurd hsame (hold k)
    next hne => exact hown h k (by omega) hsame

/-! ## A copied handle -/

theorem copy_eq (hs : p.store? h = some s) : ∃ n : Nat, p.handles[h]? = some n ∧
    n < p.stores.size ∧ p.copy h = { p with handles := p.handles.push n } := by
  obtain ⟨n, hn, hs⟩ := store?_eq_some.1 hs
  refine ⟨n, hn, (Array.getElem?_eq_some_iff.1 hs).1, ?_⟩
  rw [copy, hn]
  rfl

theorem Behind.copy (hp : p.Behind path) (hs : p.store? h = some s) : (p.copy h).Behind path := by
  obtain ⟨n, hn, hinside, hcopy⟩ := copy_eq hs
  rw [hcopy]
  refine ⟨fun k m hm => ?_, hp.path⟩
  simp only [Array.getElem?_push] at hm
  split at hm
  next =>
    obtain rfl := Option.some.inj hm
    exact hinside
  next => exact hp.named k m hm

/-- The new handle and the one it was copied from name the same store. -/
theorem same_copy (hs : p.store? h = some s) : (p.copy h).Same p.handles.size h := by
  obtain ⟨n, hn, -, hcopy⟩ := copy_eq hs
  have hlt := (Array.getElem?_eq_some_iff.1 hn).1
  rw [hcopy]
  simp [Same, Array.getElem?_push, Nat.ne_of_lt hlt, hn]

/-! ## A changed store -/

theorem replace_eq (hs : p.store? h = some s) (s' : Store) : ∃ n : Nat, p.handles[h]? = some n ∧
    n < p.stores.size ∧ p.replace h s' = { p with stores := p.stores.setIfInBounds n s' } := by
  obtain ⟨n, hn, hs⟩ := store?_eq_some.1 hs
  refine ⟨n, hn, (Array.getElem?_eq_some_iff.1 hs).1, ?_⟩
  rw [replace, hn]
  rfl

theorem Behind.replace {s' : Store} (hp : p.Behind path) (hs : p.store? h = some s)
    (hs' : s'.path = some path) : (p.replace h s').Behind path := by
  obtain ⟨n, -, hinside, hreplace⟩ := replace_eq hs s'
  rw [hreplace]
  refine ⟨fun k m hm => ?_, fun m t ht => ?_⟩
  · rw [Array.size_setIfInBounds]
    exact hp.named k m hm
  · rw [Array.getElem?_setIfInBounds] at ht
    split at ht
    next =>
      obtain rfl := Option.some.inj ht
      exact hs'
    next => exact hp.path m t ht

/-- All handles of a store see that it was changed, and no others. -/
theorem store?_replace (hs : p.store? h = some s) (s' : Store) (k : Nat) :
    (p.replace h s').store? k = if p.Same k h then some s' else p.store? k := by
  obtain ⟨n, hn, hinside, hreplace⟩ := replace_eq hs s'
  rw [hreplace]
  split
  next hsame =>
    rw [Same, hn] at hsame
    exact store?_eq_some.2 ⟨n, hsame, by simp [hinside]⟩
  next hother =>
    rw [Same, hn] at hother
    cases hk : p.handles[k]? with
    | none => simp [store?, hk]
    | some m =>
        have hne : n ≠ m := by
          rintro rfl
          exact hother hk
        simp [store?, hk, Array.getElem?_setIfInBounds_ne hne]

end ConnectionSecurity.Waiver.Pool
