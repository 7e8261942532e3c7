import Mathlib.Data.List.Range

/-!
# Loops

Rules for loops that can fail.
-/

namespace Loop

open List

variable {α ε : Type*} {l : List α} {σ : Type _}

section Total

variable {m : Type _ → Type*} [Monad m] [LawfulMonad m]

/-- A loop over the positions `0 … n-1` succeeds if each round succeeds from a state that meets the
invariant of its position. -/
theorem foldlM_range {f : σ → Nat → m σ} (P : Nat → σ → Prop) {n : Nat}
    (hround : ∀ k < n, ∀ s, P k s → ∃ s', f s k = pure s' ∧ P (k + 1) s') {s : σ} (h : P 0 s) :
    ∃ s', (List.range n).foldlM f s = pure s' ∧ P n s' := by
  induction n with
  | zero => exact ⟨s, rfl, h⟩
  | succ n ih =>
    obtain ⟨t, hloop, ht⟩ := ih fun k hk => hround k (Nat.lt_succ_of_lt hk)
    obtain ⟨s', hlast, hs'⟩ := hround n (Nat.lt_succ_self n) t ht
    refine ⟨s', ?_, hs'⟩
    rw [range_succ, foldlM_append, hloop, pure_bind, foldlM_cons, hlast, pure_bind, foldlM_nil]

/-- A loop over a list whose rounds all succeed is a fold. -/
theorem foldlM_eq_foldl {f : σ → α → m σ} {g : σ → α → σ}
    (hround : ∀ x ∈ l, ∀ s, f s x = pure (g s x)) (s : σ) : l.foldlM f s = pure (l.foldl g s) := by
  induction l generalizing s with
  | nil => rfl
  | cons x l ih =>
    rw [foldlM_cons, hround x mem_cons_self, pure_bind, foldl_cons,
      ih fun y hy => hround y (mem_cons_of_mem x hy)]

theorem foldlM_positions {f : σ → Nat → m σ} {g : σ → α → σ} (l : List α)
    (hround : ∀ k (hk : k < l.length) s, f s k = pure (g s l[k])) (s : σ) :
    (List.range l.length).foldlM f s = pure (l.foldl g s) := by
  obtain ⟨s', hloop, rfl⟩ := foldlM_range (fun k s' => s' = (l.take k).foldl g s)
    (fun k hk t ht => ⟨_, hround k hk t, by
      rw [ht, take_succ_eq_append_getElem hk, foldl_append]
      rfl⟩) (by rfl : s = _)
  rw [hloop, take_length]

theorem foldlM_noop {f : σ → α → m σ} (hround : ∀ x s, f s x = pure s) (l : List α) (s : σ) :
    l.foldlM f s = pure s := by
  induction l with
  | nil => rfl
  | cons x l ih => rw [foldlM_cons, hround, pure_bind, ih]

end Total

theorem foldl_noop {g : σ → α → σ} (hround : ∀ x ∈ l, ∀ s, g s x = s) (s : σ) :
    l.foldl g s = s := by
  induction l with
  | nil => rfl
  | cons x l ih =>
    rw [foldl_cons, hround x mem_cons_self, ih fun y hy => hround y (mem_cons_of_mem x hy)]

/-- What every successful round keeps, a successful loop keeps. -/
theorem foldlM_keeps {f : σ → α → Except ε σ} {P : σ → Prop}
    (hround : ∀ x s s', P s → f s x = .ok s' → P s') {s s' : σ} (h : P s)
    (hloop : l.foldlM f s = .ok s') : P s' := by
  induction l generalizing s with
  | nil =>
    obtain rfl : s = s' := Except.ok.inj hloop
    exact h
  | cons x l ih =>
    rw [foldlM_cons] at hloop
    cases hfirst : f s x with
    | error err =>
      rw [hfirst] at hloop
      cases hloop
    | ok t =>
      rw [hfirst] at hloop
      exact ih (hround x s t h hfirst) hloop

end Loop
