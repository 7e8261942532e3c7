import GoDDS.Lib.Bytes

/-!
# Base64
-/

namespace Base64

open ByteCodec Option

def char (k : Nat) : UInt8 :=
  if k < 26 then .ofNat (k + 65) else if k < 52 then .ofNat (k + 71)
  else if k < 62 then .ofNat (k - 4) else if k = 62 then 43 else 47

def value (c : UInt8) : Option Nat :=
  (List.range 64).find? fun k => char k = c

def pad : UInt8 := 61

/-- Three bytes are four characters of six bits; the last group is padded. -/
def encode : Bytes → Bytes
  | a :: b :: c :: rest =>
    let n := a.toNat * 65536 + b.toNat * 256 + c.toNat
    char (n / 262144) :: char (n / 4096 % 64) :: char (n / 64 % 64) :: char (n % 64) :: encode rest
  | [a, b] =>
    let n := a.toNat * 1024 + b.toNat * 4
    [char (n / 4096), char (n / 64 % 64), char (n % 64), pad]
  | [a] => [char (a.toNat / 4), char (a.toNat % 4 * 16), pad, pad]
  | [] => []

def decodeQuads : Bytes → Option Bytes
  | w :: x :: y :: z :: rest => do
    let i ← value w
    let j ← value x
    if y = pad ∧ z = pad ∧ rest = [] then return [.ofNat (i * 4 + j / 16)]
    let k ← value y
    let n := i * 1024 + j * 16 + k / 4
    if z = pad ∧ rest = [] then return [.ofNat (n / 256), .ofNat (n % 256)]
    let l ← value z
    let more ← decodeQuads rest
    return .ofNat (n / 256) :: .ofNat (n % 256) :: .ofNat (k % 4 * 64 + l) :: more
  | [] => some []
  | _ => none

def isLineBreak (c : UInt8) : Bool := c = 10 || c = 13

/-- Line breaks are skipped wherever they are. -/
def decode (b : Bytes) : Option Bytes := decodeQuads (b.filter (!isLineBreak ·))

theorem value_char : ∀ k < 64, value (char k) = some k := by decide +kernel

theorem char_ne_pad : ∀ k < 64, char k ≠ pad := by decide +kernel

theorem length_encode (d : Bytes) : (encode d).length = 4 * ((d.length + 2) / 3) := by
  fun_induction encode d with
  | case1 a b c rest n ih =>
    simp only [List.length_cons, ih]
    omega
  | _ => simp

theorem decodeQuads_encode (d : Bytes) : decodeQuads (encode d) = some d := by
  fun_induction encode d with
  | case1 a b c rest n ih =>
    have ha := a.toNat_lt
    have hb := b.toNat_lt
    have hc := c.toNat_lt
    simp only [decodeQuads, value_char _ (show n / 262144 < 64 by omega),
      value_char _ (show n / 4096 % 64 < 64 by omega), value_char _ (show n / 64 % 64 < 64 by omega),
      value_char _ (show n % 64 < 64 by omega), char_ne_pad _ (show n / 64 % 64 < 64 by omega),
      char_ne_pad _ (show n % 64 < 64 by omega), ih, bind_eq_bind, bind_some, false_and,
      if_false, Option.pure_def, Option.some.injEq, List.cons.injEq, and_true]
    refine ⟨?_, ?_, ?_⟩ <;> apply UInt8.toNat_inj.1 <;> simp only [UInt8.toNat_ofNat'] <;> omega
  | case2 a b n =>
    have ha := a.toNat_lt
    have hb := b.toNat_lt
    simp only [decodeQuads, value_char _ (show n / 4096 < 64 by omega),
      value_char _ (show n / 64 % 64 < 64 by omega), value_char _ (show n % 64 < 64 by omega),
      char_ne_pad _ (show n % 64 < 64 by omega), bind_eq_bind, bind_some, if_false,
      if_true, Option.pure_def, Option.some.injEq, List.cons.injEq, and_true]
    refine ⟨?_, ?_⟩ <;> apply UInt8.toNat_inj.1 <;> simp only [UInt8.toNat_ofNat'] <;> omega
  | case3 a =>
    have ha := a.toNat_lt
    simp only [decodeQuads, value_char _ (show a.toNat / 4 < 64 by omega),
      value_char _ (show a.toNat % 4 * 16 < 64 by omega), bind_eq_bind, bind_some,
      and_self, if_true, Option.pure_def, Option.some.injEq, List.cons.injEq, and_true]
    apply UInt8.toNat_inj.1
    simp only [UInt8.toNat_ofNat']
    omega
  | case4 => rfl

theorem isLineBreak_char (k : Nat) : isLineBreak (char k) = false := by
  by_cases hk : k < 63
  · exact (show ∀ k < 63, isLineBreak (char k) = false by decide +kernel) k hk
  · rw [char, if_neg (by omega), if_neg (by omega), if_neg (by omega), if_neg (by omega)]
    rfl

theorem filter_encode (d : Bytes) : (encode d).filter (!isLineBreak ·) = encode d := by
  have hpad : isLineBreak pad = false := rfl
  fun_induction encode d with
  | case1 a b c rest n ih => simp [isLineBreak_char, ih]
  | _ => simp [isLineBreak_char, hpad]

theorem decode_encode (d : Bytes) : decode (encode d) = some d := by
  rw [decode, filter_encode, decodeQuads_encode]

end Base64
