import Mathlib.Data.List.Basic

/-!
# Numbered parties

A list as a table of parties (goroutines, connections, calls), numbered in the order in which they
appear.
-/

namespace Parties

variable {α : Type*} {xs : List α} {x y z : α} {i j : Nat}

/-- A party is added at the end. -/
theorem concat_iff : (xs ++ [x])[j]? = some y ↔ xs[j]? = some y ∨ j = xs.length ∧ y = x := by
  by_cases h : j < xs.length
  · rw [List.getElem?_append_left h]
    exact ⟨.inl, fun h' => h'.resolve_right fun h' => absurd h'.1 (by omega)⟩
  · rw [List.getElem?_append_right (by omega), List.getElem?_singleton,
      List.getElem?_eq_none (by omega)]
    by_cases hj : j = xs.length
    · simp [hj, eq_comm]
    · simp [hj, show j - xs.length ≠ 0 by omega]

/-- A party moves in its place. -/
theorem set_iff (h : xs[i]? = some z) :
    (xs.set i x)[j]? = some y ↔ j = i ∧ y = x ∨ j ≠ i ∧ xs[j]? = some y := by
  have hlt := (List.getElem?_eq_some_iff.1 h).1
  by_cases hij : i = j
  · subst hij
    simp [hlt, eq_comm]
  · simp [List.getElem?_set_ne hij, Ne.symm hij]

end Parties
