import Mathlib.Algebra.Order.Group.Multiset
import Mathlib.Tactic.Abel
import GoDDS.Lib.Fifo
import GoDDS.Rtps.Qos

/-!
# The channels of a shmem subscriber

A subscriber of `shmem.go` has three channels of one depth: the one the broker sends to, where the
back-pressure policy applies (`deliverSub`), the one its file listener sends to, and the one `C()`
returns. The pump, started by the first call of `C()` or `TryRead`, moves samples from the first two
to the third if there is room.

A step is one channel operation.
-/

namespace GoDDS.Shmem

open Option Multiset

/-- Where `deliverSub` is: at its first send, at taking a sample out, or at its second send. -/
inductive Attempt where
  | send
  | evict
  | resend

inductive Source where
  | inProc
  | listener
  deriving DecidableEq

/-- `late` is the sample kept for late joiners, until `subscribe` has sent it, and `held` the one
the pump has. -/
structure Subscriber (α : Type*) (depth : Nat) where
  backPressure : BackPressure
  late : Option α
  inProc : Fifo α depth
  listener : Fifo α depth
  held : Option α
  ch : Fifo α depth
  pumping : Bool

namespace Subscriber

variable {α : Type*} {depth : Nat}

def new (backPressure : BackPressure) (late : Option α) : Subscriber α depth :=
  ⟨backPressure, late, .empty, .empty, none, .empty, false⟩

/-- The end of `subscribe`: send the sample kept for late joiners, if there is room. -/
def join (s : Subscriber α depth) : Subscriber α depth :=
  match s.late with
  | none => s
  | some x => { s with late := none, inProc := s.inProc.offer x }

/-- The next channel operation of `deliverSub`, and where it is then; `none` if returned. A blocking
send waits. -/
def deliverSub (s : Subscriber α depth) (x : α) : Attempt → Subscriber α depth × Option Attempt
  | .send =>
    match s.inProc.trySend x with
    | some q => ({ s with inProc := q }, none)
    | none =>
      match s.backPressure with
      | .dropOldest => (s, some .evict)
      | .block => (s, some .send)
      | .dropNewest => (s, none)
  | .evict => ({ s with inProc := s.inProc.receive }, some .resend)
  | .resend => ({ s with inProc := s.inProc.offer x }, none)

def arrive (s : Subscriber α depth) (x : α) : Subscriber α depth :=
  { s with listener := s.listener.offer x }

def start (s : Subscriber α depth) : Subscriber α depth := { s with pumping := true }

def take (s : Subscriber α depth) (source : Source) : Subscriber α depth :=
  if s.pumping = false ∨ s.held.isSome then s
  else
    match source with
    | .inProc => { s with inProc := s.inProc.receive, held := s.inProc.items.head? }
    | .listener => { s with listener := s.listener.receive, held := s.listener.items.head? }

def put (s : Subscriber α depth) : Subscriber α depth :=
  match s.held with
  | none => s
  | some x => { s with held := none, ch := s.ch.offer x }

def tryRead (s : Subscriber α depth) : Subscriber α depth × Option α :=
  ({ s with ch := s.ch.receive, pumping := true }, s.ch.items.head?)

/-! ## Where the samples are -/

def unread (s : Subscriber α depth) : Multiset α :=
  ↑s.late.toList + ↑s.inProc.items + ↑s.listener.items + ↑s.held.toList + ↑s.ch.items

def joinDiscards (s : Subscriber α depth) : Option α := if s.inProc.Full then s.late else none

def deliverDiscards (s : Subscriber α depth) (x : α) : Attempt → Option α
  | .send => if s.inProc.Full ∧ s.backPressure = .dropNewest then some x else none
  | .evict => s.inProc.items.head?
  | .resend => if s.inProc.Full then some x else none

def arriveDiscards (s : Subscriber α depth) (x : α) : Option α :=
  if s.listener.Full then some x else none

def putDiscards (s : Subscriber α depth) : Option α := if s.ch.Full then s.held else none

theorem offer_coe {cap : Nat} (q : Fifo α cap) (x : α) : (↑q.items + {x} : Multiset α) =
      ↑(q.offer x).items + ↑(if q.Full then some x else none).toList := by
  rw [Fifo.offer_items]
  by_cases h : q.Full
  · simp [h]
  · simp [h, ← coe_add]

theorem receive_coe {cap : Nat} (q : Fifo α cap) :
    (↑q.items : Multiset α) = ↑q.items.head?.toList + ↑q.receive.items := by
  rw [coe_add, Fifo.receive_items]

variable (s : Subscriber α depth)

theorem unread_join : s.unread = s.join.unread + ↑s.joinDiscards.toList := by
  unfold join joinDiscards
  cases hlate : s.late with
  | none => simp
  | some x =>
    have h := offer_coe s.inProc x
    simp only [unread, hlate, toList_some, toList_none, coe_singleton, coe_nil, zero_add]
    rw [add_comm {x} (s.inProc.items : Multiset α), h]
    abel

def inHand (x : α) : Option Attempt → Multiset α
  | none => 0
  | some _ => {x}

theorem unread_deliverSub (x : α) (a : Attempt) :
    s.unread + {x} = (s.deliverSub x a).1.unread + inHand x (s.deliverSub x a).2 +
      ↑(s.deliverDiscards x a).toList := by
  cases a with
  | send =>
    unfold deliverSub deliverDiscards
    cases htry : s.inProc.trySend x with
    | some q =>
      obtain ⟨hroom, hq⟩ := Fifo.trySend_eq_some.1 htry
      simp only [unread, inHand, hroom, hq, false_and, if_false, toList_none,
        coe_nil, ← coe_add, coe_singleton, add_zero]
      abel
    | none =>
      have hfull := Fifo.trySend_eq_none.1 htry
      cases hpolicy : s.backPressure <;> simp [inHand, hfull]
  | evict =>
    have h := receive_coe s.inProc
    simp only [deliverSub, deliverDiscards, unread, inHand]
    rw [h]
    abel
  | resend =>
    have h := offer_coe s.inProc x
    simp only [deliverSub, deliverDiscards, unread, inHand, add_zero]
    calc (s.late.toList + s.inProc.items + s.listener.items + s.held.toList + s.ch.items + {x} :
          Multiset α)
        = s.late.toList + (s.inProc.items + {x}) + s.listener.items + s.held.toList + s.ch.items := by
          abel
      _ = _ := by rw [h]; abel

theorem inHand_of_deliverDiscards {s : Subscriber α depth} {x y : α} {a : Attempt}
    (h : s.deliverDiscards x a = some y) : inHand x (s.deliverSub x a).2 = {x} ∨ y = x := by
  cases a with
  | evict => exact .inl rfl
  | _ =>
    rw [deliverDiscards, ite_none_right_eq_some] at h
    exact .inr (Option.some.inj h.2).symm

theorem unread_arrive (x : α) :
    s.unread + {x} = (s.arrive x).unread + ↑(s.arriveDiscards x).toList := by
  have h := offer_coe s.listener x
  simp only [arrive, arriveDiscards, unread]
  calc (s.late.toList + s.inProc.items + s.listener.items + s.held.toList + s.ch.items + {x} :
        Multiset α)
      = s.late.toList + s.inProc.items + (s.listener.items + {x}) + s.held.toList + s.ch.items := by
        abel
    _ = _ := by rw [h]; abel

theorem unread_take (source : Source) : (s.take source).unread = s.unread := by
  unfold take
  by_cases hbusy : s.pumping = false ∨ s.held.isSome
  · rw [if_pos hbusy]
  · rw [if_neg hbusy]
    have hheld : s.held = none := by
      rw [not_or] at hbusy
      simpa using hbusy.2
    cases source with
    | inProc =>
      simp only [unread, hheld, receive_coe s.inProc, toList_none, coe_nil, add_zero]
      abel
    | listener =>
      simp only [unread, hheld, receive_coe s.listener, toList_none, coe_nil, add_zero]
      abel

theorem unread_put : s.unread = s.put.unread + ↑s.putDiscards.toList := by
  unfold put putDiscards
  cases hheld : s.held with
  | none => simp
  | some x =>
    have h := offer_coe s.ch x
    simp only [unread, hheld, toList_some, toList_none, coe_singleton, coe_nil, add_zero]
    calc (s.late.toList + s.inProc.items + s.listener.items + {x} + s.ch.items : Multiset α)
        = s.late.toList + s.inProc.items + s.listener.items + (s.ch.items + {x}) := by abel
      _ = _ := by rw [h]; abel

theorem unread_tryRead : s.unread = s.tryRead.1.unread + ↑s.tryRead.2.toList := by
  simp only [unread, tryRead, receive_coe s.ch]
  abel

end Subscriber

end GoDDS.Shmem
