import GoDDS.Lib.Bytes

/-!
# Signed payloads

`CertPlugin` of `cert.go` appends the certificate and the signature to a payload, each followed by its
length, and reads them back from the end.
-/

namespace GoDDS.Security.Cert

open ByteCodec List

inductive Failure where
  | panic
  | refused

/-- The expression `b[i:j]`. -/
def sliceAt (b : Bytes) (i j : Int) : Except Failure Bytes :=
  if 0 ≤ i ∧ i ≤ j ∧ j ≤ b.length then .ok (slice b i.toNat j.toNat) else .error .panic

/-- Signing may fail. -/
def Seal (sign : Bytes → Option Bytes) (certDER plaintext : Bytes) : Option Bytes :=
  (sign plaintext).map fun sig =>
    plaintext ++ (certDER ++ (be 4 certDER.length ++ (sig ++ be 4 sig.length)))

/-- The plaintext with the certificate and the signature. `trusted` says whether the certificate
parses and is trusted, and the signature verifies. -/
def Open (trusted : Bytes × Bytes × Bytes → Bool) (data : Bytes) :
    Except Failure (Bytes × Bytes × Bytes) :=
  if data.length < 8 then .error .refused
  else do
    let sigLen : Int := beVal (← sliceAt data (data.length - 4) data.length)
    if sigLen < 0 ∨ data.length < 4 + sigLen + 4 then .error .refused
    else
      let sigEnd : Int := data.length - 4
      let sigStart := sigEnd - sigLen
      let sig ← sliceAt data sigStart sigEnd
      let certLenStart := sigStart - 4
      let certLen : Int := beVal (← sliceAt data certLenStart sigStart)
      let certStart := certLenStart - certLen
      if certStart < 0 then .error .refused
      else
        let certDER ← sliceAt data certStart certLenStart
        let plaintext ← sliceAt data 0 certStart
        if trusted (plaintext, certDER, sig) then .ok (plaintext, certDER, sig)
        else .error .refused

theorem sliceAt_of_le {b : Bytes} {i j : Int} (h : 0 ≤ i ∧ i ≤ j ∧ j ≤ b.length) :
    sliceAt b i j = .ok (slice b i.toNat j.toNat) := if_pos h

theorem sliceAt_eq {data a b c : Bytes} (h : data = a ++ (b ++ c)) {i j : Int} (hi : i = a.length)
    (hj : j = i + b.length) : sliceAt data i j = .ok b := by
  subst h hi hj
  rw [sliceAt_of_le (by simp), slice_skip (by simp), Int.toNat_natCast, Nat.sub_self,
    slice_here (by omega)]

theorem open_ne_panic (trusted : Bytes × Bytes × Bytes → Bool) (data : Bytes) :
    Open trusted data ≠ .error .panic := by
  unfold Open
  split_ifs with hshort
  · simp
  rw [sliceAt_of_le (by omega)]
  dsimp only [bind, Except.bind]
  split_ifs with hsig
  · simp
  rw [sliceAt_of_le (by omega), sliceAt_of_le (by omega)]
  dsimp only
  split_ifs with hcert
  · simp
  rw [sliceAt_of_le (by omega), sliceAt_of_le (by omega)]
  dsimp only
  split_ifs
  all_goals simp

theorem beVal_be {n : Nat} (h : n < 2 ^ 32) : beVal (be 4 n) = n := by
  rw [beVal, be, reverse_reverse, leVal_le_of_lt (by omega)]

/-- `Open` never slices out of range, and it splits what `Seal` has packed, if the certificate and
the signature are shorter than 4 GiB. -/
theorem open_seal (trusted : Bytes × Bytes × Bytes → Bool) :
    (∀ data, Open trusted data ≠ .error .panic) ∧
      ∀ sign p cert sig, sign p = some sig → cert.length < 2 ^ 32 → sig.length < 2 ^ 32 →
        trusted (p, cert, sig) →
        ∃ data, Seal sign cert p = some data ∧ Open trusted data = .ok (p, cert, sig) := by
  refine ⟨open_ne_panic trusted, fun sign p cert sig hsign hcert hsig htrusted => ?_⟩
  rw [Seal, hsign, Option.map_some]
  refine ⟨_, rfl, ?_⟩
  generalize hpack : p ++ (cert ++ (be 4 cert.length ++ (sig ++ be 4 sig.length))) = data
  have hlen : data.length = p.length + cert.length + 4 + sig.length + 4 := by
    rw [← hpack]
    simp
    omega
  unfold Open
  rw [if_neg (by omega), sliceAt_eq (a := p ++ cert ++ be 4 cert.length ++ sig)
    (b := be 4 sig.length) (c := []) (by simp [← hpack]) (by simp; omega) (by simp)]
  dsimp only [bind, Except.bind]
  rw [beVal_be hsig, if_neg (by omega), sliceAt_eq (a := p ++ cert ++ be 4 cert.length)
      (b := sig) (c := be 4 sig.length) (by simp [← hpack]) (by simp; omega) (by omega),
    sliceAt_eq (a := p ++ cert) (b := be 4 cert.length) (c := sig ++ be 4 sig.length)
      (by simp [← hpack]) (by simp; omega) (by simp)]
  dsimp only
  rw [beVal_be hcert, if_neg (by omega), sliceAt_eq (a := p) (b := cert)
      (c := be 4 cert.length ++ (sig ++ be 4 sig.length)) (by simp [← hpack]) (by omega) (by omega),
    sliceAt_eq (a := []) (b := p) (c := cert ++ (be 4 cert.length ++ (sig ++ be 4 sig.length)))
      (by simp [← hpack]) (by simp) (by omega)]
  exact if_pos htrusted

theorem open_seal_short :
    let trusted : Bytes × Bytes × Bytes → Bool := fun x => x.2 = ([9], [5, 6])
    ∃ data, Seal (fun _ => some [5, 6]) [9] [1] = some data ∧
      Open trusted data = .ok ([1], [9], [5, 6]) :=
  (open_seal _).2 _ _ _ _ rfl (by decide) (by decide) (by decide)

end GoDDS.Security.Cert
