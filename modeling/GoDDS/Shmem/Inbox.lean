import GoDDS.Shmem.Subscriber

/-!
# Deliveries under way
-/

namespace GoDDS.Shmem

open Multiset Subscriber

/-- A subscriber together with the `deliverSub`s that are under way to it, one for each publisher
that has come to it. -/
structure Inbox (α : Type*) (depth : Nat) where
  sub : Subscriber α depth
  flights : List (α × Attempt)

namespace Inbox

variable {α : Type*} {depth : Nat} {s : Inbox α depth} {x : α} {i : Nat} {attempt : Attempt}

/-- A channel operation of one of the goroutines; `i` says which of the `deliverSub`s. -/
inductive Act where
  | join
  | deliver (i : Nat)
  | start
  | take (source : Source)
  | put
  | tryRead
  deriving DecidableEq

def new (backPressure : BackPressure) (late : Option α) : Inbox α depth := ⟨.new backPressure late, []⟩

def send (s : Inbox α depth) (x : α) : Inbox α depth :=
  { s with flights := s.flights ++ [(x, .send)] }

def arrive (s : Inbox α depth) (x : α) : Inbox α depth := { s with sub := s.sub.arrive x }

def deliver (s : Inbox α depth) (i : Nat) : Inbox α depth :=
  match s.flights[i]? with
  | none => s
  | some (x, attempt) =>
    let next := s.sub.deliverSub x attempt
    ⟨next.1, next.2.toList.map (x, ·) ++ s.flights.eraseIdx i⟩

def step (s : Inbox α depth) : Act → Inbox α depth × List α
  | .join => ({ s with sub := s.sub.join }, [])
  | .deliver i => (s.deliver i, [])
  | .start => ({ s with sub := s.sub.start }, [])
  | .take source => ({ s with sub := s.sub.take source }, [])
  | .put => ({ s with sub := s.sub.put }, [])
  | .tryRead => ({ s with sub := s.sub.tryRead.1 }, s.sub.tryRead.2.toList)

def flying (s : Inbox α depth) : Multiset α := ↑(s.flights.map Prod.fst)

def inventory (s : Inbox α depth) : Multiset α := s.sub.unread + s.flying

def discards (s : Inbox α depth) : Act → Option α
  | .join => s.sub.joinDiscards
  | .deliver i => (s.flights[i]?).bind fun f => s.sub.deliverDiscards f.1 f.2
  | .put => s.sub.putDiscards
  | .start | .take _ | .tryRead => none

/-! ## Where the samples go -/

theorem inventory_send (s : Inbox α depth) (x : α) : (s.send x).inventory = s.inventory + {x} := by
  simp [inventory, send, flying, ← coe_add, add_assoc]

theorem inventory_arrive (s : Inbox α depth) (x : α) :
    s.inventory + {x} = (s.arrive x).inventory + ↑(s.sub.arriveDiscards x).toList := by
  have hflying : (s.arrive x).flying = s.flying := rfl
  rw [inventory, add_right_comm, s.sub.unread_arrive, inventory, hflying, arrive]
  abel

theorem deliver_eq (h : s.flights[i]? = some (x, attempt)) :
    s.deliver i = ⟨(s.sub.deliverSub x attempt).1,
      (s.sub.deliverSub x attempt).2.toList.map (x, ·) ++ s.flights.eraseIdx i⟩ := by
  rw [deliver, h]

theorem flying_deliver (h : s.flights[i]? = some (x, attempt)) : {x} + (s.deliver i).flying =
      s.flying + inHand x (s.sub.deliverSub x attempt).2 := by
  obtain ⟨hlt, hi⟩ := List.getElem?_eq_some_iff.1 h
  have hperm := ((List.getElem_cons_eraseIdx_perm hlt).map Prod.fst).symm
  rw [hi] at hperm
  rw [deliver_eq h, show s.flying = _ from coe_eq_coe.2 hperm, flying]
  cases hnext : (s.sub.deliverSub x attempt).2 with
  | none => simp [inHand]
  | some a => simp [inHand, add_comm]

/-- A step leaves every sample where it can be found, except for the one it discards and the one
that is read. -/
theorem inventory_step (s : Inbox α depth) (a : Act) :
    s.inventory = (s.step a).1.inventory + ↑(s.discards a).toList + ↑(s.step a).2 := by
  have hflying (sub : Subscriber α depth) : flying { s with sub := sub } = s.flying := rfl
  cases a with
  | join =>
    simp only [inventory, step, discards, s.sub.unread_join, hflying, coe_nil, add_zero]
    abel
  | deliver i =>
    cases hflight : s.flights[i]? with
    | none => simp [inventory, step, discards, deliver, hflight]
    | some f =>
      obtain ⟨x, attempt⟩ := f
      have hnext : (s.deliver i).sub = (s.sub.deliverSub x attempt).1 := by rw [deliver_eq hflight]
      simp only [inventory, step, discards, hnext, hflight, Option.bind_some, coe_nil, add_zero]
      -- the sample in hand is counted on both sides
      rw [← add_right_inj ({x} : Multiset α)]
      calc {x} + (s.sub.unread + s.flying)
          = (s.sub.unread + {x}) + s.flying := by abel
        _ = (s.sub.deliverSub x attempt).1.unread +
              (s.flying + inHand x (s.sub.deliverSub x attempt).2) +
              ↑(s.sub.deliverDiscards x attempt).toList := by
            rw [s.sub.unread_deliverSub]
            abel
        _ = _ := by
            rw [← flying_deliver hflight]
            abel
  | start => simp only [inventory, step, discards, hflying, Option.toList_none, coe_nil,
      add_zero, start, unread]
  | take source => simp [inventory, step, discards, unread_take, hflying]
  | put =>
    simp only [inventory, step, discards, s.sub.unread_put, hflying, coe_nil, add_zero]
    abel
  | tryRead =>
    simp only [inventory, step, discards, s.sub.unread_tryRead, hflying, Option.toList_none,
      coe_nil, add_zero]
    abel

end Inbox

end GoDDS.Shmem
