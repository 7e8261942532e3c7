import GoDDS.Rtps.Reliable

/-!
# The window of an acknowledgement

The numbers a tracker is told come from the wire, so the watermark can be any 64-bit number.
-/

namespace GoDDS

open UInt64

variable {rt : RecvTracker} {lastSN : UInt64}

namespace RecvTracker

inductive Call where
  | record (seq : UInt64)
  | initExpected (firstSN : UInt64)

def call (rt : RecvTracker) : Call → RecvTracker
  | .record seq => (rt.record seq).1
  | .initExpected firstSN => rt.initExpected firstSN

def after (calls : List Call) : RecvTracker := calls.foldl call new

theorem initDone_call (c : Call) : (rt.call c).initDone := by
  cases c with
  | record seq => exact initDone_record rt seq
  | initExpected firstSN => exact initDone_initExpected rt firstSN

theorem initDone_foldl_call (h : rt.initDone) (calls : List Call) :
    (calls.foldl call rt).initDone := by
  induction calls generalizing rt with
  | nil => exact h
  | cons c calls ih => exact ih (initDone_call c)

theorem initDone_after {calls : List Call} (h : calls ≠ []) : (after calls).initDone := by
  obtain ⟨c, calls, rfl⟩ := List.exists_cons_of_ne_nil h
  exact initDone_foldl_call (initDone_call c) calls

/-! ## Exactness -/

/-- `missing` returns, and unless the watermark has passed `lastSN` it returns the watermark and a
bit for every number of its window not remembered. -/
def MissingExact (rt : RecvTracker) (lastSN : UInt64) : Prop :=
  ∃ m, rt.missing lastSN = some m ∧
    (rt.expected ≤ lastSN → m.base = rt.expected ∧
      ∀ n < 32, m.bitmap.toNat.testBit n = true ↔
        rt.expected.toNat + n ≤ lastSN.toNat ∧ ∀ s ∈ rt.ahead, s.toNat ≠ rt.expected.toNat + n)

theorem missingExact_of_lt (hinit : rt.initDone) (hlt : lastSN < rt.expected) :
    rt.MissingExact lastSN := by
  refine ⟨⟨rt.expected, 0, false⟩, ?_, fun hle => absurd hlt (UInt64.not_lt.2 hle)⟩
  simp [missing, hinit, hlt]

theorem missingExact_of_window (hinit : rt.initDone) (hno : rt.expected.toNat + 31 < 2 ^ 64)
    (hend : rt.expected.toNat + 32 = 2 ^ 64 → lastSN ≠ maxSN) : rt.MissingExact lastSN := by
  cases hm : rt.missing lastSN with
  | none =>
    obtain ⟨-, he, hlast⟩ := (missing_eq_none_iff rt lastSN).1 hm
    exact absurd hlast (hend (by omega))
  | some m =>
    refine ⟨m, hm, fun hle => ⟨base_of_missing hm hinit, fun n hn => ?_⟩⟩
    rw [testBit_missing_iff hm hinit hno hle hn]
    refine and_congr_right fun hlast => ?_
    have hlt := lastSN.toNat_lt
    have hsum : (rt.expected + UInt64.ofNat n).toNat = rt.expected.toNat + n := by
      rw [UInt64.toNat_add, UInt64.toNat_ofNat']
      omega
    constructor
    · intro hmem s hs heq
      exact hmem (UInt64.toNat_inj.1 (heq.trans hsum.symm) ▸ hs)
    · exact fun hall hmem => hall _ hmem hsum

theorem not_missingExact_of_wrap (hle : rt.expected ≤ lastSN)
    (hwrap : 2 ^ 64 ≤ rt.expected.toNat + 31) : ¬ rt.MissingExact lastSN := by
  rintro ⟨m, hm, hexact⟩
  have hlt := rt.expected.toNat_lt
  have hlast := lastSN.toNat_lt
  have hadd := toNat_add_31 rt.expected
  have hend : windowEnd rt.expected lastSN = rt.expected + 31 := by
    rw [windowEnd, if_pos]
    rw [le_iff_toNat_le] at hle
    rw [gt_iff_lt, lt_iff_toNat_lt]
    omega
  have hstop : ¬ rt.expected ≤ rt.expected + 31 := by
    rw [le_iff_toNat_le]
    omega
  have hempty : m.bitmap = 0 := by
    unfold missing at hm
    rw [if_neg (UInt64.not_lt.2 hle), hend, missingLoop, if_neg hstop] at hm
    split_ifs at hm
    all_goals rw [← Option.some.inj hm]
  have hbit := ((hexact hle).2 0 (by decide)).2
    ⟨by simpa [le_iff_toNat_le] using hle, fun s hs heq => ?_⟩
  · rw [hempty] at hbit
    cases hbit
  · exact UInt64.lt_irrefl _ (UInt64.toNat_inj.1 heq ▸ rt.ahead_gt s hs)

theorem not_missingExact_new : ¬ new.MissingExact lastSN := by
  rintro ⟨m, hm, hexact⟩
  have hbit := ((hexact (le_iff_toNat_le.2 (Nat.zero_le _))).2 0 (by decide)).2
    ⟨Nat.zero_le _, fun s hs => absurd hs (by simp [new])⟩
  rw [← Option.some.inj hm] at hbit
  cases hbit

/-- After any calls, `missing` returns and reports exactly the missing numbers of its window if and
only if a call has been made and the window does not reach past the largest number: a window that
wraps around is reported as empty, and one that ends on the largest number is scanned forever. -/
theorem missing_exact_iff (calls : List Call) (lastSN : UInt64) :
    (after calls).MissingExact lastSN ↔ calls ≠ [] ∧ (lastSN < (after calls).expected ∨
        (after calls).expected.toNat + 31 < 2 ^ 64 ∧
          ((after calls).expected.toNat + 32 = 2 ^ 64 → lastSN ≠ maxSN)) := by
  by_cases hcalls : calls = []
  · subst hcalls
    exact ⟨fun h => absurd h (not_missingExact_new), fun h => absurd rfl h.1⟩
  have hinit := initDone_after hcalls
  constructor
  · intro hexact
    refine ⟨hcalls, ?_⟩
    by_cases hlt : lastSN < (after calls).expected
    · exact .inl hlt
    refine .inr ⟨?_, ?_⟩
    · by_contra hwrap
      exact not_missingExact_of_wrap (UInt64.not_lt.1 hlt) (Nat.not_lt.1 hwrap) hexact
    · intro he hmax
      obtain ⟨m, hm, -⟩ := hexact
      rw [(missing_eq_none_iff _ _).2 ⟨hinit, by omega, hmax⟩] at hm
      cases hm
  · rintro ⟨-, hlt | ⟨hno, hend⟩⟩
    · exact missingExact_of_lt hinit hlt
    · exact missingExact_of_window hinit hno hend

/-- A HEARTBEAT that announces 2^64 - 31 up to 2^64 - 1 is answered as if nothing were missing, and
one that starts a number lower is never answered. -/
theorem missing_wraps : ¬ (after [.initExpected 0xFFFFFFFFFFFFFFE1]).MissingExact maxSN ∧
      (after [.initExpected 0xFFFFFFFFFFFFFFE1]).missing maxSN =
        some ⟨0xFFFFFFFFFFFFFFE1, 0, false⟩ ∧
      (after [.initExpected 0xFFFFFFFFFFFFFFE0]).missing maxSN = none :=
  ⟨not_missingExact_of_wrap (by decide) (by decide), by decide, by decide +kernel⟩

end RecvTracker

end GoDDS
