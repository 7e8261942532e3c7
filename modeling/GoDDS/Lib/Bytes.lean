import Mathlib.Data.Nat.Digits.Defs

/-!
# Byte strings
-/

namespace ByteCodec

open List Nat

abbrev Bytes := List UInt8

/-! ## Slices -/

/-- The slice `b[i:j]`. -/
def slice (b : Bytes) (i j : Nat) : Bytes := (b.take j).drop i

variable {a b : Bytes} {i j : Nat}

theorem slice_skip (h : a.length ≤ i) :
    slice (a ++ b) i j = slice b (i - a.length) (j - a.length) := by
  unfold slice
  rw [take_append, drop_append, drop_eq_nil_of_le]
  · rw [nil_append, length_take]
    rcases le_total j a.length with hj | hj
    · have hz : j - a.length = 0 := by omega
      rw [hz, take_zero, drop_nil, drop_nil]
    · rw [min_eq_right hj]
  · exact (length_take_le' _ _).trans h

theorem slice_here (h : a.length = j) : slice (a ++ b) 0 j = a := by
  subst h
  simp [slice]

theorem slice_all (h : a.length = j) : slice a 0 j = a := by
  subst h
  simp [slice]

theorem length_slice (h : j ≤ b.length) : (slice b i j).length = j - i := by
  simp [slice, min_eq_left h]

theorem getElem?_slice {k : Nat} (h : i + k < j) : (slice b i j)[k]? = b[i + k]? := by
  rw [slice, getElem?_drop, getElem?_take_of_lt h]

/-- `b` with its bytes from offset `i` up to `j` overwritten by the front of `src`, as far as that
goes. -/
def overwrite (b : Bytes) (i j : Nat) (src : Bytes) : Bytes :=
  b.take i ++ (src.take (j - i) ++ b.drop (i + min (j - i) src.length))

theorem length_overwrite (src : Bytes) (hij : i ≤ j) (hj : j ≤ b.length) :
    (overwrite b i j src).length = b.length := by
  simp only [overwrite, length_append, length_take, length_drop]
  omega

theorem getElem?_overwrite (hi : i ≤ b.length) (j : Nat) (src : Bytes) (k : Nat) :
    (overwrite b i j src)[k]? =
      if i ≤ k ∧ k < i + min (j - i) src.length then src[k - i]? else b[k]? := by
  have htake : (b.take i).length = i := length_take_of_le hi
  have hmid : (src.take (j - i)).length = min (j - i) src.length := length_take
  unfold overwrite
  by_cases hlow : k < i
  · rw [getElem?_append_left (by omega), getElem?_take_of_lt hlow, if_neg (by omega)]
  rw [getElem?_append_right (by omega), htake]
  by_cases hin : k < i + min (j - i) src.length
  · rw [getElem?_append_left (by omega), getElem?_take_of_lt (by omega),
      if_pos ⟨by omega, hin⟩]
  · rw [getElem?_append_right (by omega), hmid, getElem?_drop, if_neg (by omega)]
    congr 1
    omega

/-- An array of `n` bytes. -/
def FixedBytes (n : Nat) := { b : Bytes // b.length = n }
  deriving DecidableEq

namespace FixedBytes

variable {n : Nat}

def toBytes (a : FixedBytes n) : Bytes := a.val

@[simp] theorem length_toBytes (a : FixedBytes n) : a.toBytes.length = n := a.property

@[ext] theorem ext {a b : FixedBytes n} (h : a.toBytes = b.toBytes) : a = b := Subtype.ext h

/-- Truncates or pads with zeros. -/
def copy (n : Nat) (src : Bytes) : FixedBytes n :=
  ⟨src.take n ++ List.replicate (n - src.length) 0, by
    rw [length_append, length_take, length_replicate]
    omega⟩

@[simp] theorem copy_toBytes (a : FixedBytes n) : copy n a.toBytes = a := by
  apply FixedBytes.ext
  show a.toBytes.take n ++ List.replicate (n - a.toBytes.length) 0 = a.toBytes
  rw [length_toBytes, Nat.sub_self, replicate_zero, append_nil,
    take_of_length_le (le_of_eq a.length_toBytes)]

end FixedBytes

/-- The bytes of a number, least significant first. -/
def le : Nat → Nat → Bytes
  | 0, _ => []
  | w + 1, v => UInt8.ofNat v :: le w (v / 256)

/-- Reads them back (`leVal_le`). -/
def leVal (b : Bytes) : Nat := Nat.ofDigits 256 (b.map UInt8.toNat)

/-- The bytes of a number, most significant first. -/
def be (w v : Nat) : Bytes := (le w v).reverse

def beVal (b : Bytes) : Nat := leVal b.reverse

@[simp] theorem length_le (w v : Nat) : (le w v).length = w := by
  induction w generalizing v with
  | zero => rfl
  | succ w ih => simp [le, ih]

@[simp] theorem length_be (w v : Nat) : (be w v).length = w := by simp [be]

theorem leVal_le (w v : Nat) : leVal (le w v) = v % 256 ^ w := by
  induction w generalizing v with
  | zero => simp [le, leVal, mod_one]
  | succ w ih =>
    unfold leVal at ih ⊢
    have h256 : 256 ^ (w + 1) = 2 ^ 8 * 256 ^ w := by ring
    rw [le, map_cons, ofDigits_cons, ih, UInt8.toNat_ofNat', h256, mod_mul]
    rfl

theorem leVal_le_of_lt {w v : Nat} (h : v < 256 ^ w) : leVal (le w v) = v := by
  rw [leVal_le, mod_eq_of_lt h]

theorem leVal_lt (b : Bytes) : leVal b < 256 ^ b.length := by
  have h := ofDigits_lt_base_pow_length (b := 256) (l := b.map UInt8.toNat) (by decide)
    (fun x hx => by
      obtain ⟨c, -, rfl⟩ := List.mem_map.1 hx
      exact c.toNat_lt)
  rwa [length_map] at h

def u16At (b : Bytes) (i : Nat) : UInt16 := UInt16.ofNat (leVal (slice b i (i + 2)))

def u16BEAt (b : Bytes) (i : Nat) : UInt16 := UInt16.ofNat (beVal (slice b i (i + 2)))

def u32At (b : Bytes) (i : Nat) : UInt32 := UInt32.ofNat (leVal (slice b i (i + 4)))

def u16 (v : UInt16) : Bytes := le 2 v.toNat

def u32 (v : UInt32) : Bytes := le 4 v.toNat

@[simp] theorem length_u16 (v : UInt16) : (u16 v).length = 2 := length_le _ _

@[simp] theorem length_u32 (v : UInt32) : (u32 v).length = 4 := length_le _ _

theorem u16At_skip (h : a.length ≤ i) : u16At (a ++ b) i = u16At b (i - a.length) := by
  unfold u16At
  rw [slice_skip h, show i + 2 - a.length = i - a.length + 2 by omega]

theorem u32At_skip (h : a.length ≤ i) : u32At (a ++ b) i = u32At b (i - a.length) := by
  unfold u32At
  rw [slice_skip h, show i + 4 - a.length = i - a.length + 4 by omega]

@[simp] theorem u16At_here (v : UInt16) (b : Bytes) : u16At (u16 v ++ b) 0 = v := by
  unfold u16At
  rw [slice_here (by simp), u16, leVal_le_of_lt v.toNat_lt, UInt16.ofNat_toNat]

@[simp] theorem u32At_here (v : UInt32) (b : Bytes) : u32At (u32 v ++ b) 0 = v := by
  unfold u32At
  rw [slice_here (by simp), u32, leVal_le_of_lt v.toNat_lt, UInt32.ofNat_toNat]

@[simp] theorem u32At_here_end (v : UInt32) : u32At (u32 v) 0 = v := by
  simpa using u32At_here v []

end ByteCodec
