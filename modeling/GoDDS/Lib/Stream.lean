import GoDDS.Lib.Bytes

/-!
# Byte streams
-/

namespace ByteCodec

open List

/-- The next `n` bytes of a stream. -/
def readFull (n : Nat) (r : Bytes) : Option (Bytes × Bytes) :=
  if r.length < n then none else some (r.take n, r.drop n)

/-- A number from the next `n` bytes, most significant first. -/
def readBE (n : Nat) (r : Bytes) : Option (Nat × Bytes) :=
  (readFull n r).map fun x => (beVal x.1, x.2)

/-- One value after the other. -/
def readMany {β : Type} (read : Bytes → Option (β × Bytes)) : Nat → Bytes → Option (List β × Bytes)
  | 0, r => some ([], r)
  | n + 1, r => do
    let (x, r) ← read r
    let (xs, r) ← readMany read n r
    return (x :: xs, r)

variable {a r rest : Bytes} {n v : Nat}

theorem readFull_append (h : a.length = n) : readFull n (a ++ r) = some (a, r) := by
  subst h
  simp [readFull]

theorem length_readFull (h : readFull n r = some (a, rest)) :
    a.length = n ∧ r.length = n + rest.length := by
  unfold readFull at h
  split_ifs at h
  cases h
  rw [length_take, length_drop]
  omega

theorem length_readBE (h : readBE n r = some (v, rest)) : r.length = n + rest.length := by
  obtain ⟨⟨a, rest'⟩, hfull, heq⟩ := Option.map_eq_some_iff.1 h
  cases heq
  exact (length_readFull hfull).2

theorem readBE_append (h : v < 256 ^ n) : readBE n (be n v ++ r) = some (v, r) := by
  rw [readBE, readFull_append (length_be n v), Option.map_some, beVal, be, reverse_reverse,
    leVal_le_of_lt h]

theorem readMany_flatMap {α β : Type} {read : Bytes → Option (β × Bytes)} {encode : α → Bytes}
    {value : α → β} {xs : List α}
    (h : ∀ x ∈ xs, ∀ rest, read (encode x ++ rest) = some (value x, rest)) (rest : Bytes) :
    readMany read xs.length (xs.flatMap encode ++ rest) = some (xs.map value, rest) := by
  induction xs with
  | nil => rfl
  | cons x xs ih =>
    rw [flatMap_cons, append_assoc, length_cons, readMany, h x mem_cons_self]
    simp [ih fun y hy => h y (mem_cons_of_mem x hy)]

end ByteCodec
