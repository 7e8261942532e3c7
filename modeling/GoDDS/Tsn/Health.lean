import GoDDS.Tsn.Config

/-!
# Schedule lateness
-/

namespace GoDDS.Tsn

open Go List

/-- `time.Duration(us) * time.Microsecond`, in 64 bits. -/
def microseconds (us : Int) : Int := (us * 1000).bmod (2 ^ 64)

namespace Stream

def interval (s : Stream) : Int := microseconds s.intervalUS

def txOffset (s : Stream) : Int := microseconds s.txOffsetUS

/-- The time of a write is snapped down to a multiple of the interval, the offset, which is checked
for its sign only, is added, and one interval is taken off if that is past the write. -/
def scheduled (s : Stream) (actual : Int) : Int :=
  if 0 < s.interval then
    let scheduled := actual.tdiv s.interval * s.interval + s.txOffset
    if scheduled > actual then scheduled - s.interval else scheduled
  else actual

end Stream

structure HealthEntry where
  scheduled : Int
  actual : Int
  deriving DecidableEq

/-- The lateness of a write as `Health` counts it. -/
def HealthEntry.lateness (e : HealthEntry) : Int :=
  if e.actual - e.scheduled < 0 then 0 else e.actual - e.scheduled

structure HealthTracker where
  stream : Stream
  windowSize : Nat
  entries : List HealthEntry
  windowSize_pos : 0 < windowSize

namespace HealthTracker

def new (s : Stream) (windowSize : Int) : HealthTracker :=
  ⟨s, if windowSize ≤ 0 then 100 else windowSize.toNat, [], by split_ifs <;> omega⟩

def record (h : HealthTracker) (actual : Int) : HealthTracker :=
  let entries := h.entries ++ [⟨h.stream.scheduled actual, actual⟩]
  { h with entries := if entries.length > h.windowSize then entries.drop 1 else entries }

theorem getLast?_record (h : HealthTracker) (actual : Int) :
    (h.record actual).entries.getLast? = some ⟨h.stream.scheduled actual, actual⟩ := by
  have hpos := h.windowSize_pos
  unfold record
  dsimp only
  split_ifs with hlong
  · rw [length_append, length_singleton] at hlong
    rw [drop_append_of_le_length (by omega), getLast?_append]
    rfl
  · rw [getLast?_append]
    rfl

end HealthTracker

theorem microseconds_eq {us : Int} (hus : 0 ≤ us) (h : us * 1000 < 2 ^ 63) :
    microseconds us = us * 1000 := by
  unfold microseconds
  rw [Int.bmod_def]
  omega

theorem validate_eq_none {s : Stream} {i : Nat} (h : s.validate i = none) :
    0 ≤ s.intervalUS ∧ 0 ≤ s.txOffsetUS := by
  unfold Stream.validate at h
  split_ifs at h
  omega

theorem scheduled_eq {s : Stream} {actual : Int} (hI : 0 < s.interval) (hactual : 0 ≤ actual) :
    ∃ k, s.scheduled actual = s.txOffset + s.interval * k ∧ actual - s.scheduled actual =
      actual % s.interval - s.txOffset +
        if actual % s.interval < s.txOffset then s.interval else 0 := by
  have hdiv := Int.mul_ediv_add_emod actual s.interval
  rw [Stream.scheduled, if_pos hI, Int.tdiv_eq_ediv_of_nonneg hactual, mul_comm]
  dsimp only
  split_ifs with hpast hless hless
  · exact ⟨actual / s.interval - 1, by rw [mul_sub]; omega, by omega⟩
  · omega
  · omega
  · exact ⟨actual / s.interval, by omega, by omega⟩

/-- The slot stored for a write is the offset modulo the interval. It is the last such slot before
the write exactly if the offset is not more than an interval past the place of the write in its
interval; if so the lateness is that of the write modulo the interval. -/
theorem lateness_iff {c : StreamConfig} {s : Stream} (hvalid : c.validate = none)
    (hs : s ∈ c.streams) (hpos : 0 < s.intervalUS) (hI : s.intervalUS * 1000 < 2 ^ 63)
    (hO : s.txOffsetUS * 1000 < 2 ^ 63) {h : HealthTracker} (hstream : h.stream = s) {actual : Int}
    (hactual : 0 ≤ actual) : ∃ e, (h.record actual).entries.getLast? = some e ∧ e.actual = actual ∧
      e.scheduled % s.interval = s.txOffset % s.interval ∧
      ((0 ≤ actual - e.scheduled ∧ actual - e.scheduled < s.interval) ↔
        s.txOffset ≤ s.interval + actual % s.interval) ∧
      (s.txOffset ≤ s.interval + actual % s.interval →
        e.lateness = (actual - s.txOffset) % s.interval) := by
  obtain ⟨hnonneg, hoffset⟩ : 0 ≤ s.intervalUS ∧ 0 ≤ s.txOffsetUS := by
    obtain ⟨i, hi⟩ := getElem?_of_mem hs
    have hmem : (s, i) ∈ c.streams.zipIdx := mem_zipIdx_iff_getElem?.2 hi
    exact validate_eq_none (findSome?_eq_none_iff.1 hvalid _ hmem)
  have hinterval : 0 < s.interval := by
    rw [Stream.interval, microseconds_eq hnonneg hI]
    omega
  have hO : 0 ≤ s.txOffset := by
    rw [Stream.txOffset, microseconds_eq hoffset hO]
    omega
  subst hstream
  obtain ⟨k, hslot, hlate⟩ := scheduled_eq hinterval hactual
  have hr := Int.emod_nonneg actual hinterval.ne'
  have hlt := Int.emod_lt_of_pos actual hinterval
  refine ⟨_, h.getLast?_record actual, rfl, ?_, ?_, fun hle => ?_⟩
  · rw [hslot, Int.add_mul_emod_self_left]
  · rw [hlate]
    split_ifs <;> omega
  · have hmod : (actual - h.stream.txOffset) % h.stream.interval =
        actual - h.stream.scheduled actual := by
      rw [← Int.add_mul_emod_self_left _ _ (-k), mul_neg]
      have hsum : actual - h.stream.txOffset + -(h.stream.interval * k) =
          actual - h.stream.scheduled actual := by omega
      rw [hsum, Int.emod_eq_of_lt] <;> rw [hlate] <;> split_ifs <;> omega
    rw [hmod]
    refine if_neg ?_
    rw [hlate]
    split_ifs <;> omega

/-- An offset of three intervals: the slot stored for a write at the epoch is two intervals
later. -/
def farOffset : Stream := ⟨str "t", 0, 0, 0, 0, 1, 3⟩

theorem lateness_near : ∃ e, ((HealthTracker.new { farOffset with txOffsetUS := 1 } 0).record
      2500).entries.getLast? = some e ∧ e.lateness = 500 := by
  obtain ⟨e, hlast, -, -, -, hlate⟩ := lateness_iff (c := ⟨[{ farOffset with txOffsetUS := 1 }]⟩)
    (h := HealthTracker.new { farOffset with txOffsetUS := 1 } 0) rfl mem_cons_self (by decide)
    (by decide) (by decide) rfl (show (0 : Int) ≤ 2500 by decide)
  exact ⟨e, hlast, hlate (by decide)⟩

theorem slot_after_write : StreamConfig.validate ⟨[farOffset]⟩ = none ∧
    ((HealthTracker.new farOffset 0).record 0).entries = [⟨2000, 0⟩] := by decide

end GoDDS.Tsn
