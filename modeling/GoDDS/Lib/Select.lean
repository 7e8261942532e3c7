import Mathlib.Data.List.Basic

/-!
# Selecting among channels

A *select* takes one of the cases whose channel is ready, whichever the scheduler picks; if none is,
it takes the default; without one it blocks. A list with two defaults is refused.
-/

namespace Select

open List

structure Chan (α : Type*) where
  queue : List α
  closed : Bool

namespace Chan

variable {α : Type*}

def ready (c : Chan α) : Bool := c.closed || !c.queue.isEmpty

/-- Nothing will ever be received from the channel again. -/
def Drained (c : Chan α) : Prop := c.closed = true ∧ c.queue = []

def send (c : Chan α) (x : α) : Chan α := if c.closed then c else { c with queue := c.queue ++ [x] }

def close (c : Chan α) : Chan α := { c with closed := true }

theorem drained_send {c : Chan α} (h : c.Drained) (x : α) : (c.send x).Drained := by
  rw [send, if_pos h.1]
  exact h

theorem drained_close {c : Chan α} (h : c.Drained) : c.close.Drained := ⟨rfl, h.2⟩

theorem drained_of_ready {c : Chan α} (hready : c.ready) (h : c.queue = []) : c.Drained := by
  simp only [ready, h, isEmpty_nil, Bool.not_true, Bool.or_false] at hready
  exact ⟨hready, h⟩

end Chan

/-! ## Cases -/

inductive Case (κ : Type*) where
  | recv (channel : κ)
  | default

inductive Outcome where
  | refused
  | blocked
  | chosen (i : Nat)

variable {κ : Type*}

def Case.isDefault : Case κ → Bool
  | recv _ => false
  | default => true

def Case.isReady (ready : κ → Bool) : Case κ → Bool
  | recv ch => ready ch
  | default => false

def readyCases (ready : κ → Bool) (cases : List (Case κ)) : List Nat :=
  (List.range cases.length).filter fun i => (cases[i]?).any (Case.isReady ready)

/-- Select among the cases. `choice` is the scheduler's pick among the ready ones. -/
def select (ready : κ → Bool) (cases : List (Case κ)) (choice : Nat) : Outcome :=
  if 1 < cases.countP Case.isDefault then .refused
  else
    match (readyCases ready cases)[choice % (readyCases ready cases).length]? with
    | some i => .chosen i
    | none =>
      match cases.findIdx? Case.isDefault with
      | some i => .chosen i
      | none => .blocked

variable {ready : κ → Bool} {cases : List (Case κ)} {choice i : Nat}

theorem mem_readyCases :
    i ∈ readyCases ready cases ↔ ∃ ch, cases[i]? = some (.recv ch) ∧ ready ch := by
  rw [readyCases, mem_filter, mem_range]
  constructor
  · rintro ⟨hlt, hready⟩
    rw [getElem?_eq_getElem hlt, Option.any_some] at hready
    cases hcase : cases[i] with
    | recv ch =>
      rw [hcase] at hready
      exact ⟨ch, by rw [getElem?_eq_getElem hlt, hcase], hready⟩
    | default =>
      rw [hcase] at hready
      exact absurd hready Bool.false_ne_true
  · rintro ⟨ch, hcase, hready⟩
    exact ⟨(List.getElem?_eq_some_iff.1 hcase).1, by rw [hcase]; exact hready⟩

/-- Only a second default is refused. -/
theorem select_ne_refused (h : cases.countP Case.isDefault ≤ 1) :
    select ready cases choice ≠ .refused := by
  rw [select, if_neg (by omega)]
  split
  · nofun
  · split <;> nofun

theorem readyCases_of_pick_none
    (h : (readyCases ready cases)[choice % (readyCases ready cases).length]? = none) :
    readyCases ready cases = [] := by
  by_contra hne
  have hlt := Nat.mod_lt choice (length_pos_iff.2 hne)
  exact absurd (List.getElem?_eq_none_iff.1 h) (by omega)

theorem readyCases_of_blocked (h : select ready cases choice = .blocked) :
    readyCases ready cases = [] := by
  rw [select] at h
  split_ifs at h
  split at h
  · cases h
  · next hpick => exact readyCases_of_pick_none hpick

/-- What is known of the case a select takes. -/
theorem select_eq_chosen (h : select ready cases choice = .chosen i) :
    (∃ ch, cases[i]? = some (.recv ch) ∧ ready ch) ∨
      cases[i]? = some .default ∧ readyCases ready cases = [] := by
  rw [select] at h
  split_ifs at h
  split at h
  next j hpick =>
    obtain rfl := Outcome.chosen.inj h
    exact .inl (mem_readyCases.1 (mem_of_getElem? hpick))
  next hpick =>
    split at h
    next j hdefault =>
      obtain rfl := Outcome.chosen.inj h
      obtain ⟨hlt, hj, -⟩ := findIdx?_eq_some_iff_getElem.1 hdefault
      refine .inr ⟨?_, readyCases_of_pick_none hpick⟩
      rw [getElem?_eq_getElem hlt]
      cases hcase : cases[j] with
      | recv ch =>
        rw [hcase] at hj
        exact absurd hj Bool.false_ne_true
      | default => rfl
    · cases h

end Select
