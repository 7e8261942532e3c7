import GoDDS.Lib.Run
import GoDDS.Shmem.Inbox

/-!
# Back-pressure through two channels
-/

namespace GoDDS.Shmem

open Multiset

/-- The policy applies to the channel the broker sends to. The pump moves the samples to the one
that is read, and when that is full it drops what it has in hand, whatever the policy is. -/
structure Intake (depth : Nat) where
  inbox : Inbox (Option Nat) depth
  written : Nat

namespace Intake

variable {depth : Nat} {s : Intake depth} {n : Nat}

inductive Act where
  | write
  | arrive
  | own (a : Inbox.Act)
  deriving DecidableEq

/-- A subscriber that has just been registered. If there is a sample for late joiners, it has the
number 0. -/
def new (depth : Nat) (backPressure : BackPressure) (late : Bool) : Intake depth :=
  if late then ⟨.new backPressure (some (some 0)), 1⟩ else ⟨.new backPressure none, 0⟩

def step (s : Intake depth) : Act → Intake depth × List (Option Nat)
  | .write => (⟨s.inbox.send (some s.written), s.written + 1⟩, [])
  | .arrive => ({ s with inbox := s.inbox.arrive none }, [])
  | .own a => ({ s with inbox := (s.inbox.step a).1 }, (s.inbox.step a).2)

/-- Sample `n` is lost in the step: it is gone, and the reader has not got it. -/
def Lost (s : Intake depth) (a : Act) (n : Nat) : Prop :=
  some n ∈ s.inbox.inventory ∧ some n ∉ (s.step a).1.inbox.inventory ∧ some n ∉ (s.step a).2
  deriving Decidable

def Honours (s : Intake depth) (a : Act) : Prop :=
  match s.inbox.sub.backPressure with
  | .block => ∀ n, ¬ s.Lost a n
  | .dropOldest => ∀ n, s.Lost a n → ∀ k, some k ∈ (s.step a).1.inbox.sub.unread → n < k
  | .dropNewest => True

def discards (s : Intake depth) : Act → Option (Option Nat)
  | .write => none
  | .arrive => s.inbox.sub.arriveDiscards none
  | .own a => s.inbox.discards a

/-- No sample is discarded, or one that is older than the others. -/
def Fair (s : Intake depth) (a : Act) : Prop :=
  match s.inbox.sub.backPressure with
  | .block => ∀ n, s.discards a ≠ some (some n)
  | .dropOldest => ∀ n, s.discards a = some (some n) →
      ∀ k, some k ∈ s.inbox.sub.unread → k ≠ n → n < k
  | .dropNewest => True

/-! ## What is lost -/

/-- No number is there twice, and those to come are not there. -/
def Numbered (s : Intake depth) : Prop :=
  ∀ n, s.inbox.inventory.count (some n) ≤ if n < s.written then 1 else 0

theorem count_step (s : Intake depth) (a : Act) (n : Nat) :
    s.inbox.inventory.count (some n) + (if a = .write ∧ n = s.written then 1 else 0) =
      (s.step a).1.inbox.inventory.count (some n) +
        count (some n) ↑(s.discards a).toList + count (some n) ↑(s.step a).2 := by
  cases a with
  | write =>
    have h := congrArg (count (some n)) (s.inbox.inventory_send (some s.written))
    rw [count_add, count_singleton] at h
    simpa [step, discards] using h.symm
  | arrive =>
    have h := congrArg (count (some n)) (s.inbox.inventory_arrive none)
    rw [count_add, count_add, count_singleton] at h
    simpa [step, discards] using h
  | own a =>
    have h := congrArg (count (some n)) (s.inbox.inventory_step a)
    simpa [step, discards] using h

theorem numbered_new (backPressure : BackPressure) (late : Bool) :
    (new depth backPressure late).Numbered := by
  intro n
  cases late with
  | false => exact Nat.zero_le _
  | true =>
    have h : (new depth backPressure true).inbox.inventory = {some 0} := rfl
    have hwritten : (new depth backPressure true).written = 1 := rfl
    rw [h, hwritten, count_singleton]
    by_cases hn : n = 0 <;> simp [hn]

theorem written_step (s : Intake depth) (a : Act) :
    (s.step a).1.written = s.written + if a = .write then 1 else 0 := by
  cases a <;> rfl

theorem count_le_step (a : Act) {c : Nat}
    (h : s.inbox.inventory.count (some n) + c ≤ if n < s.written then 1 else 0) :
    (s.step a).1.inbox.inventory.count (some n) + (c + count (some n) ↑(s.step a).2) ≤
      if n < (s.step a).1.written then 1 else 0 := by
  have hcount := s.count_step a n
  rw [written_step]
  by_cases hw : a = .write
  · simp only [hw, true_and, if_true] at hcount ⊢
    split_ifs at h hcount ⊢ <;> omega
  · simp only [hw, false_and, if_false, add_zero] at hcount ⊢
    omega

theorem numbered_step (h : s.Numbered) (a : Act) : (s.step a).1.Numbered :=
  fun n => (Nat.le_add_right ..).trans (count_le_step a (c := 0) (h n))

theorem discards_eq_of_lost {a : Act} (h : s.Lost a n) : s.discards a = some (some n) := by
  obtain ⟨hmem, hafter, hread⟩ := h
  have hcount := s.count_step a n
  have hbefore := one_le_count_iff_mem.2 hmem
  rw [count_eq_zero.2 hafter, count_eq_zero.2 (mt mem_coe.1 hread)]
    at hcount
  have hin : some n ∈ (↑(s.discards a).toList : Multiset (Option Nat)) :=
    one_le_count_iff_mem.1 (by omega)
  simpa using hin

theorem lost_iff (h : s.Numbered) (a : Act) : s.Lost a n ↔ s.discards a = some (some n) := by
  refine ⟨discards_eq_of_lost, fun hout => ?_⟩
  have hcount := s.count_step a n
  have hwrite : a ≠ .write := by
    rintro rfl
    exact absurd hout (by simp [discards])
  have hone : count (some n) (↑(s.discards a).toList : Multiset (Option Nat)) = 1 := by
    simp [hout]
  have hn : s.inbox.inventory.count (some n) ≤ 1 := (h n).trans (by split_ifs <;> omega)
  rw [if_neg fun hw => hwrite hw.1] at hcount
  refine ⟨one_le_count_iff_mem.1 (by omega), count_eq_zero.1 (by omega), ?_⟩
  exact mt mem_coe.2 (count_eq_zero.1 (by omega))

theorem count_flying_step {a : Act} {x y : Option Nat} (h : s.discards a = some x) (hy : y ≠ x) :
    (s.step a).1.inbox.flying.count y = s.inbox.flying.count y := by
  match a, h with
  | .own (.deliver i), h =>
    obtain ⟨⟨z, attempt⟩, hflight, h⟩ := Option.bind_eq_some_iff.1 h
    have heq := congrArg (count y) (Inbox.flying_deliver hflight)
    have hhand : count y (Subscriber.inHand z (s.inbox.sub.deliverSub z attempt).2) =
        count y {z} := by
      rcases Subscriber.inHand_of_deliverDiscards h with hhand | rfl
      · rw [hhand]
      · have hxy : count y {x} = 0 := by simpa using hy
        cases (s.inbox.sub.deliverSub x attempt).2 with
        | none => exact hxy.symm
        | some => rfl
    rw [count_add, count_add, hhand] at heq
    exact (Nat.add_left_cancel (heq.trans (Nat.add_comm _ _)))
  | .arrive, _ | .own .join, _ | .own .put, _ => rfl

theorem mem_unread_step {a : Act} {k : Nat} (h : s.discards a = some (some n)) (hk : k ≠ n) :
    some k ∈ (s.step a).1.inbox.sub.unread ↔ some k ∈ s.inbox.sub.unread := by
  have hcount := s.count_step a k
  have hflying := count_flying_step h (y := some k) (by simpa using hk)
  have hread : (s.step a).2 = [] := by
    match a, h with
    | .arrive, _ | .own .join, _ | .own .put, _ | .own (.deliver i), _ => rfl
  have hwrite : a ≠ .write := by
    rintro rfl
    exact absurd h (by simp [discards])
  have hother : count (some k) (↑(s.discards a).toList : Multiset (Option Nat)) = 0 := by
    simpa [h] using hk
  rw [if_neg fun hw => hwrite hw.1, hread, hother] at hcount
  simp only [Inbox.inventory, count_add, hflying, coe_nil, count_zero,
    add_zero, Nat.add_right_cancel_iff] at hcount
  rw [← one_le_count_iff_mem, ← one_le_count_iff_mem, hcount]

theorem honours_iff_fair (h : s.Numbered) (a : Act) : s.Honours a ↔ s.Fair a := by
  unfold Honours Fair
  cases s.inbox.sub.backPressure with
  | block => exact forall_congr' fun n => not_congr (lost_iff h a)
  | dropOldest =>
    refine forall_congr' fun n => ?_
    rw [lost_iff h a]
    refine forall_congr' fun hout => forall_congr' fun k => ?_
    -- the sample that is discarded is not there any more
    have hgone : some n ∉ (s.step a).1.inbox.sub.unread := fun hmem =>
      ((lost_iff h a).2 hout).2.1 (mem_add.2 (.inl hmem))
    by_cases hk : k = n
    · subst hk
      simp [hgone]
    · rw [mem_unread_step hout hk]
      simp [hk]
  | dropNewest => exact Iff.rfl

/-- In a run, a subscriber with `Block` loses no sample, and one with `DropOldest` loses none while
an older one is kept, exactly if nothing is discarded, or what is discarded is older than all that
is unread (`discards`). -/
theorem back_pressure_iff (depth : Nat) (backPressure : BackPressure) (late : Bool)
    (acts : List Act) :
    Run.Along (fun _ s a => s.Honours a) step [] (new depth backPressure late) acts ↔
      Run.Along (fun _ s a => s.Fair a) step [] (new depth backPressure late) acts :=
  Run.along_congr_of_invariant (I := Numbered) (fun _ _ a h _ => numbered_step h a)
    (fun _ _ a h => honours_iff_fair h a) [] (numbered_new backPressure late) acts

/-- Of two samples written to a subscriber of depth 1 that reads none the pump drops the second,
with either policy. -/
theorem newer_sample_dropped :
    let before (backPressure : BackPressure) := (Run.run step (new 1 backPressure false)
      [.own .start, .write, .own (.deliver 0), .own (.take .inProc), .own .put, .write,
        .own (.deliver 0), .own (.take .inProc)]).1
    (before .block).Lost (.own .put) 1 ∧ (before .dropOldest).Lost (.own .put) 1 ∧
      some 0 ∈ ((before .dropOldest).step (.own .put)).1.inbox.sub.unread := by decide +kernel

/-- Whatever the goroutines do, a sample of the process is under way or has been read once, not
both. -/
theorem read_at_most_once (depth : Nat) (backPressure : BackPressure) (late : Bool)
    (acts : List Act) (n : Nat) :
    let r := Run.run step (new depth backPressure late) acts
    (r.1.inbox.inventory + ↑r.2).count (some n) ≤ if n < r.1.written then 1 else 0 := by
  refine Run.run_induction_always (s := new depth backPressure late)
    (J := fun (s : Intake depth) _ (read : List (Option Nat)) =>
      (s.inbox.inventory + ↑read).count (some n) ≤ if n < s.written then 1 else 0)
    (fun s a _ read h => ?_) (by simpa using numbered_new backPressure late n) acts
  simp only [← coe_add, count_add] at h ⊢
  exact count_le_step a h

end Intake

end GoDDS.Shmem
