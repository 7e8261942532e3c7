import Mathlib

/-!
# Cyclic redundancy checks

A shift register of `w` bits is linear in exclusive or, so two messages of one length leave the same
register exactly if their difference leaves the empty register empty (`remainder_diff`).
-/

namespace ShiftRegister

open List Function

variable {w : Nat}

def shift (poly s : BitVec w) : BitVec w := if s.msb then (s <<< 1) ^^^ poly else s <<< 1

def top (w : Nat) (b : Bool) : BitVec w := if b then BitVec.twoPow w (w - 1) else 0

def absorb (poly s : BitVec w) (b : Bool) : BitVec w := shift poly (s ^^^ top w b)

def remainder (poly s : BitVec w) (bs : List Bool) : BitVec w := bs.foldl (absorb poly) s

def diff (as bs : List Bool) : List Bool := List.zipWith xor as bs

variable {poly : BitVec w}

/-! ## Linearity -/

theorem shift_xor (a b : BitVec w) : shift poly (a ^^^ b) = shift poly a ^^^ shift poly b := by
  have hswap : ∀ x y p : BitVec w, (x ^^^ p) ^^^ y = (x ^^^ y) ^^^ p := fun x y p => by
    rw [BitVec.xor_assoc, BitVec.xor_comm p, BitVec.xor_assoc]
  have hcancel : ∀ x y p : BitVec w, (x ^^^ p) ^^^ (y ^^^ p) = x ^^^ y := fun x y p => by
    rw [hswap, ← BitVec.xor_assoc, BitVec.xor_assoc, BitVec.xor_self, BitVec.xor_zero]
  unfold shift
  rw [BitVec.msb_xor, BitVec.shiftLeft_xor_distrib]
  cases a.msb <;> cases b.msb
  · simp
  · simp [BitVec.xor_assoc]
  · simp [hswap]
  · simp [hcancel]

@[simp] theorem shift_zero : shift poly 0#w = 0#w := by
  simp [shift]

theorem top_xor (a b : Bool) : top w (a ^^ b) = top w a ^^^ top w b := by
  cases a <;> cases b <;> simp [top]

theorem remainder_cons (s : BitVec w) (b : Bool) (bs : List Bool) :
    remainder poly s (b :: bs) = remainder poly (absorb poly s b) bs := rfl

theorem remainder_append (s : BitVec w) (as bs : List Bool) :
    remainder poly s (as ++ bs) = remainder poly (remainder poly s as) bs :=
  foldl_append

theorem absorb_xor (s t : BitVec w) (a b : Bool) :
    absorb poly (s ^^^ t) (a ^^ b) = absorb poly s a ^^^ absorb poly t b := by
  have hmid : ∀ x y u v : BitVec w, (x ^^^ y) ^^^ (u ^^^ v) = (x ^^^ u) ^^^ (y ^^^ v) :=
    fun x y u v => by
      rw [BitVec.xor_assoc, ← BitVec.xor_assoc y, BitVec.xor_comm y u, BitVec.xor_assoc u,
        ← BitVec.xor_assoc]
  unfold absorb
  rw [top_xor, hmid, shift_xor]

variable {as bs : List Bool}

theorem remainder_xor (hlen : as.length = bs.length) (s t : BitVec w) :
    remainder poly s as ^^^ remainder poly t bs = remainder poly (s ^^^ t) (diff as bs) := by
  induction as generalizing bs s t with
  | nil =>
    obtain rfl : bs = [] := length_eq_zero_iff.1 hlen.symm
    rfl
  | cons a as ih =>
    cases bs with
    | nil => simp at hlen
    | cons b bs =>
      rw [remainder_cons, remainder_cons, ih (by simpa using hlen)]
      show _ = remainder poly (s ^^^ t) ((a ^^ b) :: diff as bs)
      rw [remainder_cons, absorb_xor]

theorem remainder_diff (hlen : as.length = bs.length) (s : BitVec w) :
    remainder poly s as = remainder poly s bs ↔ remainder poly 0#w (diff as bs) = 0#w := by
  rw [← BitVec.xor_eq_zero_iff, remainder_xor hlen, BitVec.xor_self]

theorem remainder_zeros (s : BitVec w) (n : Nat) :
    remainder poly s (List.replicate n false) = (shift poly)^[n] s := by
  induction n generalizing s with
  | zero => rfl
  | succ n ih =>
    have habsorb : absorb poly s false = shift poly s := by simp [absorb, top]
    rw [replicate_succ, remainder_cons, habsorb, ih, iterate_succ_apply]

theorem shift_iterate_zero (n : Nat) : (shift poly)^[n] 0#w = 0#w :=
  iterate_fixed shift_zero n

theorem shift_injective (hpoly : poly.getLsbD 0) : Function.Injective (shift poly) := by
  have hw : 0 < w := by
    by_contra hw
    rw [BitVec.getLsbD_of_ge poly 0 (by omega)] at hpoly
    cases hpoly
  have hzero : ∀ s : BitVec w, shift poly s = 0#w → s = 0#w := by
    intro s hs
    unfold shift at hs
    split_ifs at hs with hmsb
    · have hbit : ((s <<< 1) ^^^ poly).getLsbD 0 = (0#w).getLsbD 0 := by rw [hs]
      rw [BitVec.getLsbD_xor, BitVec.getLsbD_shiftLeft, hpoly, BitVec.getLsbD_zero] at hbit
      simp at hbit
    · apply BitVec.eq_of_getLsbD_eq
      intro i hi
      have hbit : (s <<< 1).getLsbD (i + 1) = (0#w).getLsbD (i + 1) := by rw [hs]
      rw [BitVec.getLsbD_shiftLeft, Nat.add_sub_cancel, BitVec.getLsbD_zero] at hbit
      rw [BitVec.getLsbD_zero]
      by_cases hlast : i + 1 < w
      · simpa only [hlast, decide_true, Nat.not_lt_of_le (Nat.le_add_left 1 i), decide_false,
          Bool.not_false, Bool.true_and] using hbit
      · rw [BitVec.msb_eq_getLsbD_last] at hmsb
        have hi' : i = w - 1 := by omega
        rw [hi']
        simpa using hmsb
  intro a b hab
  rw [← BitVec.xor_eq_zero_iff]
  apply hzero
  rw [shift_xor, hab, BitVec.xor_self]

theorem shift_iterate_eq_zero_iff (hpoly : poly.getLsbD 0) (n : Nat) (s : BitVec w) :
    (shift poly)^[n] s = 0#w ↔ s = 0#w := by
  constructor
  · intro h
    exact (shift_injective hpoly).iterate n (h.trans (shift_iterate_zero n).symm)
  · rintro rfl
    exact shift_iterate_zero n

/-! ## Bursts -/

/-- A message of at most `w` bits, placed in the register with its first bit at the top. -/
def pack (w : Nat) : List Bool → BitVec w
  | [] => 0
  | b :: bs => top w b ^^^ (pack w bs >>> 1)

theorem getLsbD_top (b : Bool) (i : Nat) : (top w b).getLsbD i = (b && decide (i + 1 = w)) := by
  cases b with
  | false => simp [top]
  | true =>
    simp only [top, if_true, BitVec.getLsbD_twoPow, Bool.true_and]
    rw [← Bool.decide_and, decide_eq_decide]
    omega

theorem getLsbD_pack (bs : List Bool) {i : Nat} (hi : i < w) :
    (pack w bs).getLsbD i = bs[w - 1 - i]?.getD false := by
  induction bs generalizing i with
  | nil => simp [pack]
  | cons b bs ih =>
    rw [pack, BitVec.getLsbD_xor, getLsbD_top, BitVec.getLsbD_ushiftRight]
    by_cases hlast : i + 1 = w
    · have hzero : w - 1 - i = 0 := by omega
      have hout : (pack w bs).getLsbD (1 + i) = false := BitVec.getLsbD_of_ge _ _ (by omega)
      simp [hlast, hzero, hout]
    · have hsucc : w - 1 - i = (w - 1 - (1 + i)) + 1 := by omega
      rw [ih (by omega), hsucc]
      simp [hlast]

theorem shift_pack (hlen : bs.length < w) : shift poly (pack w bs >>> 1) = pack w bs := by
  have hmsb : (pack w bs >>> 1).msb = false := by
    rw [BitVec.msb_eq_getLsbD_last, BitVec.getLsbD_ushiftRight]
    exact BitVec.getLsbD_of_ge _ _ (by omega)
  rw [shift, hmsb]
  apply BitVec.eq_of_getLsbD_eq
  intro i hi
  cases i with
  | zero =>
    rw [getLsbD_pack bs hi]
    have hout : bs[w - 1 - 0]? = none := getElem?_eq_none (by omega)
    rw [hout, if_neg Bool.false_ne_true, BitVec.getLsbD_shiftLeft]
    simp
  | succ i => simp [hi, Nat.add_comm 1 i]

theorem remainder_eq_pack (hlen : bs.length ≤ w) (s : BitVec w) :
    remainder poly s bs = (shift poly)^[bs.length] (s ^^^ pack w bs) := by
  induction bs generalizing s with
  | nil => simp [remainder, pack]
  | cons b bs ih =>
    have hlen' : bs.length < w := by simpa using hlen
    have hfirst : shift poly (s ^^^ pack w (b :: bs)) = absorb poly s b ^^^ pack w bs := by
      rw [pack, ← BitVec.xor_assoc, shift_xor, shift_pack hlen']
      rfl
    rw [remainder_cons, ih (by omega), length_cons, iterate_succ_apply, hfirst]

theorem pack_ne_zero (hlen : bs.length ≤ w) (h : true ∈ bs) : pack w bs ≠ 0#w := by
  intro hzero
  obtain ⟨k, hk, hbit⟩ := mem_iff_getElem.1 h
  have hi : w - 1 - k < w := by omega
  have hpack := getLsbD_pack bs hi
  rw [hzero, show w - 1 - (w - 1 - k) = k by omega, getElem?_eq_getElem hk, hbit] at hpack
  simp at hpack

/-- A difference confined to `w` consecutive bits is not lost, if the polynomial has a constant
term. -/
theorem remainder_burst (hpoly : poly.getLsbD 0) {burst : List Bool}
    (hlen : burst.length ≤ w) (h : true ∈ burst) (i j : Nat) :
    remainder poly 0#w (List.replicate i false ++ burst ++ List.replicate j false) ≠ 0#w := by
  rw [remainder_append, remainder_append, remainder_zeros, remainder_zeros, shift_iterate_zero,
    remainder_eq_pack hlen, BitVec.zero_xor, Ne, shift_iterate_eq_zero_iff hpoly,
    shift_iterate_eq_zero_iff hpoly]
  exact pack_ne_zero hlen h

/-! ## Two bits -/

/-- Two flipped bits at distance `d` are lost only if `d` shifts bring the top bit back to
itself. -/
theorem remainder_two (hpoly : poly.getLsbD 0) (i d j : Nat)
    (h : remainder poly 0#w (List.replicate i false ++ true :: List.replicate d false ++
      true :: List.replicate j false) = 0#w) : (shift poly)^[d + 1] (top w true) = top w true := by
  rw [remainder_append, remainder_append, remainder_zeros, shift_iterate_zero, remainder_cons,
    remainder_zeros, remainder_cons, remainder_zeros, shift_iterate_eq_zero_iff hpoly] at h
  have hempty : absorb poly 0#w true = shift poly (top w true) := by simp [absorb]
  have hlast := (shift_iterate_eq_zero_iff hpoly 1 _).1 h
  rw [hempty, ← iterate_succ_apply, BitVec.xor_eq_zero_iff] at hlast
  exact hlast

theorem exists_first_of_count {n : Nat} (h : bs.count true = n + 1) :
    ∃ i rest, bs = List.replicate i false ++ true :: rest ∧ rest.count true = n := by
  induction bs with
  | nil => simp at h
  | cons b bs ih =>
    cases b with
    | true => exact ⟨0, bs, rfl, by simpa using h⟩
    | false =>
      obtain ⟨i, rest, rfl, hrest⟩ := ih (by simpa using h)
      exact ⟨i + 1, rest, rfl, hrest⟩

theorem eq_replicate_of_count (h : bs.count true = 0) : bs = List.replicate bs.length false := by
  refine eq_replicate_iff.2 ⟨rfl, fun b hb => ?_⟩
  cases b with
  | true => exact absurd hb (count_eq_zero.1 h)
  | false => rfl

theorem remainder_two_flips (hpoly : poly.getLsbD 0) (hcount : bs.count true = 2)
    (hback : ∀ d, d + 1 < bs.length → (shift poly)^[d + 1] (top w true) ≠ top w true) :
    remainder poly 0#w bs ≠ 0#w := by
  obtain ⟨i, rest, rfl, hrest⟩ := exists_first_of_count hcount
  obtain ⟨d, last, rfl, hlast⟩ := exists_first_of_count hrest
  intro hzero
  rw [eq_replicate_of_count hlast, ← cons_append, ← append_assoc] at hzero
  refine hback d ?_ (remainder_two hpoly i d last.length hzero)
  simp only [length_append, length_cons, length_replicate]
  omega

/-- A shift on numbers, which the kernel computes with; `half` is the number with the top bit. -/
def shiftNat (half poly x : Nat) : Nat :=
  bif Nat.blt x half then 2 * x else (2 * x - 2 * half) ^^^ poly

theorem toNat_shift (hw : 0 < w) (s : BitVec w) :
    (shift poly s).toNat = shiftNat (2 ^ (w - 1)) poly.toNat s.toNat := by
  have hpow : 2 * 2 ^ (w - 1) = 2 ^ w := by
    rw [← Nat.pow_succ', Nat.succ_eq_add_one, Nat.sub_add_cancel hw]
  have hlt := s.isLt
  have hleft : (s <<< 1).toNat = 2 * s.toNat % 2 ^ w := by
    rw [BitVec.toNat_shiftLeft, Nat.shiftLeft_eq, pow_one, Nat.mul_comm]
  unfold shift shiftNat
  rw [BitVec.msb_eq_decide]
  by_cases hlow : s.toNat < 2 ^ (w - 1)
  · have hblt : Nat.blt s.toNat (2 ^ (w - 1)) = true := by simpa using hlow
    rw [hblt, if_neg (by simpa using hlow), hleft, Nat.mod_eq_of_lt (by omega)]
    rfl
  · have hblt : Nat.blt s.toNat (2 ^ (w - 1)) = false := by
      rw [Bool.eq_false_iff]
      simpa using hlow
    have hmod : 2 * s.toNat % 2 ^ w = 2 * s.toNat - 2 * 2 ^ (w - 1) := by
      rw [hpow, Nat.mod_eq_sub_mod (by omega), Nat.mod_eq_of_lt (by omega)]
    rw [hblt, if_pos (by simpa using hlow), BitVec.toNat_xor, hleft, hmod]
    rfl

/-- The first `n` registers of a sequence of shifts differ from a given one: a check that runs. -/
def avoids (half poly target : Nat) : Nat → Nat → Bool
  | 0, _ => true
  | n + 1, x => bif Nat.beq x target then false else avoids half poly target n (shiftNat half poly x)

theorem iterate_ne_of_avoids (hw : 0 < w) {target : BitVec w} {n : Nat} {s : BitVec w}
    (h : avoids (2 ^ (w - 1)) poly.toNat target.toNat n s.toNat) {d : Nat} (hd : d < n) :
    (shift poly)^[d] s ≠ target := by
  induction n generalizing s d with
  | zero => omega
  | succ n ih =>
    unfold avoids at h
    cases heq : Nat.beq s.toNat target.toNat with
    | true =>
      rw [heq] at h
      cases h
    | false =>
      rw [heq, cond_false, ← toNat_shift hw] at h
      cases d with
      | zero =>
        intro hs
        exact Nat.ne_of_beq_eq_false heq (congrArg BitVec.toNat hs)
      | succ d => exact ih h (by omega)

/-! ## Parity -/

def bit (b : Bool) : ZMod 2 := if b then 1 else 0

theorem bit_xor (a b : Bool) : bit (a ^^ b) = bit a + bit b := by
  cases a <;> cases b <;> decide

def parity (bs : List Bool) : ZMod 2 := (bs.map bit).sum

theorem parity_eq_count (bs : List Bool) : parity bs = (bs.count true : ℕ) := by
  induction bs with
  | nil => rfl
  | cons b bs ih =>
    unfold parity at ih ⊢
    rw [map_cons, sum_cons, ih]
    cases b <;> simp [bit, add_comm]

theorem parity_append (as bs : List Bool) : parity (as ++ bs) = parity as + parity bs := by
  simp [parity]

theorem parity_diff (hlen : as.length = bs.length) :
    parity (diff as bs) = parity as + parity bs := by
  induction as generalizing bs with
  | nil =>
    obtain rfl : bs = [] := length_eq_zero_iff.1 hlen.symm
    rfl
  | cons a as ih =>
    cases bs with
    | nil => simp at hlen
    | cons b bs =>
      have hlen' : as.length = bs.length := by simpa using hlen
      have hrest := ih hlen'
      unfold parity diff at hrest ⊢
      rw [zipWith_cons_cons, map_cons, map_cons, map_cons, sum_cons,
        sum_cons, sum_cons, hrest, bit_xor, add_add_add_comm]

def weight (s : BitVec w) : ZMod 2 := ∑ i ∈ Finset.range w, bit (s.getLsbD i)

theorem weight_xor (a b : BitVec w) : weight (a ^^^ b) = weight a + weight b := by
  simp only [weight, BitVec.getLsbD_xor, bit_xor, Finset.sum_add_distrib]

theorem weight_append {v : Nat} (a : BitVec v) (b : BitVec w) :
    weight (a ++ b) = weight a + weight b := by
  have hlow : ∀ i ∈ Finset.range w, bit ((a ++ b).getLsbD i) = bit (b.getLsbD i) := by
    intro i hi
    rw [BitVec.getLsbD_append, if_pos (Finset.mem_range.1 hi)]
  have hhigh : ∀ i ∈ Finset.range v, bit ((a ++ b).getLsbD (w + i)) = bit (a.getLsbD i) := by
    intro i _
    rw [BitVec.getLsbD_append, if_neg (by omega), Nat.add_sub_cancel_left]
  have hrange : Finset.range (v + w) = Finset.range (w + v) := by rw [Nat.add_comm]
  unfold weight
  rw [hrange, Finset.sum_range_add, Finset.sum_congr rfl hlow, Finset.sum_congr rfl hhigh, add_comm]

theorem weight_shiftLeft (s : BitVec w) : weight (s <<< 1) + bit s.msb = weight s := by
  cases w with
  | zero => simp [weight, BitVec.msb, BitVec.getMsbD, bit]
  | succ n =>
    have hlow : ∀ i ∈ Finset.range n,
        bit ((s <<< 1).getLsbD (i + 1)) = bit (s.getLsbD i) := by
      intro i hi
      have hi' : i + 1 < n + 1 := Nat.succ_lt_succ (Finset.mem_range.1 hi)
      rw [BitVec.getLsbD_shiftLeft, Nat.add_sub_cancel]
      simp only [hi', decide_true, Nat.not_lt_of_le (Nat.le_add_left 1 i), decide_false,
        Bool.not_false, Bool.true_and]
    have hzero : bit ((s <<< 1).getLsbD 0) = 0 := by simp [bit]
    unfold weight
    rw [Finset.sum_range_succ', Finset.sum_congr rfl hlow, hzero, add_zero,
      BitVec.msb_eq_getLsbD_last, Finset.sum_range_succ]
    rfl

theorem weight_shift (hpoly : weight poly = 1) (s : BitVec w) :
    weight (shift poly s) = weight s := by
  have hleft := weight_shiftLeft s
  unfold shift
  split_ifs with hmsb
  · rw [weight_xor, hpoly, ← hleft, hmsb]
    rfl
  · rw [← hleft, Bool.eq_false_iff.2 hmsb]
    simp [bit]

theorem weight_top (hw : 0 < w) (b : Bool) : weight (top w b) = bit b := by
  have hbit : ∀ i ∈ Finset.range w, bit ((top w b).getLsbD i) = if i = w - 1 then bit b else 0 := by
    intro i hi
    have hi' : i < w := Finset.mem_range.1 hi
    rw [getLsbD_top]
    by_cases hlast : i = w - 1
    · simp [hlast, show w - 1 + 1 = w by omega]
    · simp [hlast, show ¬ i + 1 = w by omega, bit]
  rw [weight, Finset.sum_congr rfl hbit, Finset.sum_ite_eq' (Finset.range w) (w - 1),
    if_pos (Finset.mem_range.2 (by omega))]

/-- With an even number of terms in all, the register has the parity of what was fed into it. -/
theorem weight_remainder (hw : 0 < w) (hpoly : weight poly = 1) (s : BitVec w) (bs : List Bool) :
    weight (remainder poly s bs) = weight s + parity bs := by
  induction bs generalizing s with
  | nil => simp [remainder, parity]
  | cons b bs ih =>
    have hbit : weight (absorb poly s b) = weight s + bit b := by
      rw [absorb, weight_shift hpoly, weight_xor, weight_top hw]
    rw [remainder_cons, ih, hbit, add_assoc]
    rfl

end ShiftRegister
