import Mathlib.Order.Interval.Finset.Nat

/-!
# Watermarks
-/

namespace Watermark

theorem exists_notMem (a : ℕ) (S : Finset ℕ) : ∃ m, a ≤ m ∧ m ∉ S := by
  refine ⟨a + S.sup id + 1, by omega, fun h => ?_⟩
  have hle : a + S.sup id + 1 ≤ S.sup id := Finset.le_sup (f := id) h
  omega

/-- The least number not in the set, from an anchor on. -/
def watermark (a : ℕ) (S : Finset ℕ) : ℕ := Nat.find (exists_notMem a S)

variable {a m n k : ℕ} {S T : Finset ℕ}

theorem le_watermark (a : ℕ) (S : Finset ℕ) : a ≤ watermark a S :=
  (Nat.find_spec (exists_notMem a S)).1

theorem watermark_notMem (a : ℕ) (S : Finset ℕ) : watermark a S ∉ S :=
  (Nat.find_spec (exists_notMem a S)).2

theorem watermark_le (ha : a ≤ m) (hm : m ∉ S) : watermark a S ≤ m :=
  Nat.find_min' _ ⟨ha, hm⟩

theorem mem_of_lt_watermark (ha : a ≤ m) (hm : m < watermark a S) : m ∈ S := by
  by_contra h
  exact absurd (watermark_le ha h) (Nat.not_le.2 hm)

theorem watermark_eq (ha : a ≤ m) (hm : m ∉ S) (hlt : ∀ i, a ≤ i → i < m → i ∈ S) :
    watermark a S = m := by
  refine le_antisymm (watermark_le ha hm) (Nat.not_lt.1 fun h => ?_)
  exact watermark_notMem a S (hlt _ (le_watermark a S) h)

@[simp] theorem watermark_empty (a : ℕ) : watermark a ∅ = a :=
  watermark_eq le_rfl (Finset.notMem_empty a) fun _ hi hlt => absurd hlt (Nat.not_lt.2 hi)

theorem watermark_mono (h : S ⊆ T) : watermark a S ≤ watermark a T :=
  watermark_le (le_watermark a T) fun hmem => watermark_notMem a T (h hmem)

theorem watermark_insert_of_ne (h : m ≠ watermark a S) :
    watermark a (insert m S) = watermark a S := by
  refine watermark_eq (le_watermark a S) ?_ fun i hi hlt =>
    Finset.mem_insert_of_mem (mem_of_lt_watermark hi hlt)
  rw [Finset.mem_insert, not_or]
  exact ⟨Ne.symm h, watermark_notMem a S⟩

theorem watermark_le_succ (ha : a ≤ n + 1) (hS : ∀ i ∈ S, i ≤ n) : watermark a S ≤ n + 1 :=
  watermark_le ha fun h => by
    have := hS _ h
    omega

/-- A round brings in the missing numbers of a window of `k` numbers from the watermark on, up to a
last number `n`: the watermark passes the window or `n`. -/
theorem min_le_watermark_window (hsub : S ⊆ T)
    (hwin : ∀ i, watermark a S ≤ i → i < watermark a S + k → i ≤ n → i ∈ T) :
    min (watermark a S + k) (n + 1) ≤ watermark a T := by
  by_contra h
  obtain ⟨hk, hn⟩ := lt_min_iff.1 (Nat.not_le.1 h)
  refine watermark_notMem a T (hwin _ (watermark_mono hsub) hk (by omega))

end Watermark
