import Mathlib.Data.List.Basic

/-!
# Bounded queues
-/

/-- A buffered channel: at most `cap` values, received in the order they were sent. -/
structure Fifo (α : Type*) (cap : Nat) where
  items : List α
  length_le : items.length ≤ cap

namespace Fifo

variable {α : Type*} {cap : Nat}

def empty : Fifo α cap := ⟨[], Nat.zero_le cap⟩

def Full (q : Fifo α cap) : Prop := q.items.length = cap
  deriving Decidable

/-- A send goes through exactly if the queue is not full. -/
def trySend (q : Fifo α cap) (x : α) : Option (Fifo α cap) :=
  if h : q.items.length < cap then some ⟨q.items ++ [x], by rw [List.length_append]; exact h⟩
  else none

/-- The send that gives up at once and drops the value. -/
def offer (q : Fifo α cap) (x : α) : Fifo α cap := (q.trySend x).getD q

def receive (q : Fifo α cap) : Fifo α cap :=
  ⟨q.items.tail, Nat.le_trans (by simp) q.length_le⟩

theorem not_full_iff {q : Fifo α cap} : ¬ q.Full ↔ q.items.length < cap := by
  have h := q.length_le
  unfold Full
  omega

theorem trySend_eq_none {q : Fifo α cap} {x : α} : q.trySend x = none ↔ q.Full := by
  unfold trySend
  by_cases h : q.items.length < cap
  · simp [h, not_full_iff.2 h]
  · simp [h, not_not.1 (mt not_full_iff.1 h)]

theorem trySend_eq_some {q q' : Fifo α cap} {x : α} :
    q.trySend x = some q' ↔ ¬ q.Full ∧ q'.items = q.items ++ [x] := by
  rw [not_full_iff]
  unfold trySend
  by_cases h : q.items.length < cap
  · simp only [h, dif_pos, Option.some.injEq, true_and]
    refine ⟨fun heq => by rw [← heq], fun heq => ?_⟩
    cases q'
    simp_all
  · simp [h]

theorem offer_items (q : Fifo α cap) (x : α) :
    (q.offer x).items = if q.Full then q.items else q.items ++ [x] := by
  unfold offer
  by_cases h : q.Full
  · rw [trySend_eq_none.2 h, if_pos h]
    rfl
  · obtain ⟨q', hq'⟩ := Option.ne_none_iff_exists'.1 (mt trySend_eq_none.1 h)
    rw [hq', if_neg h]
    exact (trySend_eq_some.1 hq').2

theorem receive_items (q : Fifo α cap) : q.items.head?.toList ++ q.receive.items = q.items := by
  change q.items.head?.toList ++ q.items.tail = q.items
  cases q.items <;> rfl

end Fifo
