import GoDDS.Shmem.Names

/-!
# The history of a topic after a crash

A crash leaves a beginning of the file. `persistLoad` reads the payload with a single `Read`, whose
count it ignores, into a buffer of zeros.
-/

namespace GoDDS

open ByteCodec Go Shmem
open List hiding not_lt

/-- What is left in the file behind the length, and the length. -/
def persisted (file : Bytes) : Bytes × Nat := (file.drop 4, (u32At file 0).toNat)

/-- `persistLoad`, once the file is open; `n` is the count its `Read` returns. -/
def persistLoad (file : Bytes) (n : Nat) : Option Bytes :=
  let (rest, length) := persisted file
  if file.length < 4 then none
  else if Participant.maxPersisted < length then none
  else if rest = [] ∧ length ≠ 0 then none
  else some (rest.take n ++ List.replicate (length - n) 0)

/-- The contract of `Read`: of what is asked for and there, at least one byte. -/
def ReadReturns (file : Bytes) (n : Nat) : Prop :=
  let (rest, length) := persisted file
  n ≤ min rest.length length ∧ (0 < min rest.length length → 0 < n)
  deriving Decidable

theorem persistRead_eq (file : Bytes) :
    persistRead file = persistLoad file (min (persisted file).1.length (persisted file).2) := by
  unfold persistRead persistLoad persisted
  dsimp only
  rw [take_eq_take_min, Nat.min_comm]
  split_ifs <;> first | rfl | simp only [Option.some.injEq]; congr 2; omega

variable {payload file : Bytes} {n : Nat}

theorem persisted_of_prefix (hfits : payload.length ≤ Participant.maxPersisted)
    (hfile : file <+: framed payload) (hlen : 4 ≤ file.length) :
    persisted file = (payload.take (file.length - 4), payload.length) := by
  have hfit : payload.length < 2 ^ 32 := hfits.trans_lt (by decide)
  rw [prefix_iff_eq_take.1 hfile, framed, take_append, length_u32,
    take_of_length_le (by rw [length_u32]; exact hlen), persisted, u32At_here,
    UInt32.toNat_ofNat', Nat.mod_eq_of_lt hfit]
  simp

/-- What is loaded from a beginning of the file is the payload, or an error, exactly if the `Read`
has no payload byte to return or those it does not return are zero. -/
theorem persistLoad_all_or_nothing_iff (payload : Bytes)
    (hfits : payload.length ≤ Participant.maxPersisted) (file : Bytes)
    (hfile : file <+: framed payload) (n : Nat) (hread : ReadReturns file n) :
    (∀ loaded, persistLoad file n = some loaded → loaded = payload) ↔
      file.length ≤ 4 ∨ ∀ b ∈ payload.drop n, b = 0 := by
  by_cases hlen : file.length < 4
  · simp [persistLoad, hlen, hlen.le]
  have hpersisted := persisted_of_prefix hfits hfile (not_lt.1 hlen)
  have hle : file.length - 4 ≤ payload.length := by
    have := hfile.length_le
    rw [framed, length_append, length_u32] at this
    omega
  simp only [ReadReturns, hpersisted, length_take, Nat.min_eq_left hle] at hread
  simp only [persistLoad, hpersisted, hlen, not_lt.2 hfits, if_false]
  by_cases hfour : file.length = 4
  · have hn : n = 0 := by omega
    cases payload <;> simp [hfour, hn]
  · have hne : payload.take (file.length - 4) ≠ [] :=
      ne_nil_of_length_pos (by rw [length_take]; omega)
    rw [if_neg fun h => hne h.1, take_take, Nat.min_eq_left (by omega), or_iff_right (by omega)]
    simp only [Option.some.injEq, forall_eq']
    conv_lhs => rhs; rw [← take_append_drop n payload]
    rw [append_cancel_left_eq, eq_comm, eq_replicate_iff, length_drop]
    exact and_iff_right rfl

theorem persistLoad_whole : ReadReturns (framed [7, 8]) 2 ∧
    ∀ loaded, persistLoad (framed [7, 8]) 2 = some loaded → loaded = [7, 8] :=
  ⟨by decide, (persistLoad_all_or_nothing_iff [7, 8] (by decide) _ prefix_rfl 2 (by decide)).2
    (.inr (by simp))⟩

/-- **A payload that is padded with zeros**: after a crash in the middle of it, and from the whole
file if the `Read` is short. -/
theorem persistLoad_pads :
    (framed [7, 8]).take 5 <+: framed [7, 8] ∧ ReadReturns ((framed [7, 8]).take 5) 1 ∧
      persistLoad ((framed [7, 8]).take 5) 1 = some [7, 0] ∧
      ReadReturns (framed [7, 8]) 1 ∧ persistLoad (framed [7, 8]) 1 = some [7, 0] :=
  ⟨List.take_prefix _ _, by decide, by decide, by decide, by decide⟩

end GoDDS
