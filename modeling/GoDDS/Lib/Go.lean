import GoDDS.Lib.Bytes

/-!
# The parts of Go's standard library in use
-/

namespace Go

open ByteCodec

/-- Strings are byte strings. -/
abbrev Str := Bytes

def str (s : String) : Str := s.toList.map fun c => UInt8.ofNat c.toNat

def encodeRune (c : Char) : Str :=
  let n := c.toNat
  let tail (k : Nat) : UInt8 := UInt8.ofNat (0x80 + n / 64 ^ k % 64)
  if n < 0x80 then [UInt8.ofNat n]
  else if n < 0x800 then [UInt8.ofNat (0xC0 + n / 64), tail 0]
  else if n < 0x10000 then [UInt8.ofNat (0xE0 + n / 64 ^ 2), tail 1, tail 0]
  else [UInt8.ofNat (0xF0 + n / 64 ^ 3), tail 2, tail 1, tail 0]

def ofRunes (rs : List Char) : Str := rs.flatMap encodeRune

/-- A `time.Duration` is a number of nanoseconds, and a `time.Time` its distance in nanoseconds from
the Unix epoch; both are plain integers. -/
def second : Int := 1000000000

/-- The zero value of `time.Time`: the first of January of year 1. -/
def zeroTime : Int := -62135596800 * second

def unix (t : Int) : Int := t / second

def nanosecond (t : Int) : Int := t % second

def ofUnix (sec ns : Int) : Int := sec * second + ns

def len32 (x : UInt32) : UInt32 := if x = 0 then 0 else UInt32.ofNat (Nat.log2 x.toNat) + 1

def reverse32 (x : UInt32) : UInt32 := ⟨x.toBitVec.reverse⟩

@[simp] theorem reverse32_reverse32 (x : UInt32) : reverse32 (reverse32 x) = x := by
  unfold reverse32
  rw [BitVec.reverse_reverse_eq]

theorem len32_toNat (x : UInt32) : (len32 x).toNat = if x = 0 then 0 else Nat.log2 x.toNat + 1 := by
  unfold len32
  split_ifs with h
  · rfl
  · have hne : x.toNat ≠ 0 := fun h0 => h (UInt32.toNat_inj.1 h0)
    have hlog : Nat.log2 x.toNat < 32 := (Nat.log2_lt hne).2 x.toNat_lt
    rw [UInt32.toNat_add, UInt32.toNat_ofNat', show (1 : UInt32).toNat = 1 from rfl]
    omega

theorem len32_le (x : UInt32) : (len32 x).toNat ≤ 32 := by
  rw [len32_toNat]
  split_ifs with h
  · exact Nat.zero_le _
  · have hne : x.toNat ≠ 0 := fun h0 => h (UInt32.toNat_inj.1 h0)
    exact (Nat.log2_lt hne).2 x.toNat_lt

end Go
