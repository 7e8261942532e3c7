import Mathlib.Data.List.Infix

/-!
# Places in a tree of values
-/

namespace Path

open Option

/-- How a selector reads and replaces a part of a value. -/
class Node (S V : Type*) where
  child : S → V → Option V
  replace : S → V → V → Option V
  replace_isSome : ∀ {s v c} (x), child s v = some c → (replace s x v).isSome
  child_replace : ∀ {s x v v'}, replace s x v = some v' → child s v' = some x
  child_replace_ne : ∀ {s t x v v'}, s ≠ t → replace s x v = some v' → child t v' = child t v
  replace_replace : ∀ {s x y v v'}, replace s x v = some v' → replace s y v' = replace s y v
  replace_child : ∀ {s v c}, child s v = some c → replace s c v = some v

variable {S V : Type*} [Node S V]

/-- The part that a list of selectors leads to. -/
def get : List S → V → Option V
  | [], v => some v
  | s :: p, v => (Node.child s v).bind (get p)

/-- The whole with that part replaced. -/
def put : List S → V → V → Option V
  | [], x, _ => some x
  | s :: p, x, v => (Node.child s v).bind fun c => (put p x c).bind fun c' => Node.replace s c' v

@[simp] theorem get_nil (v : V) : get ([] : List S) v = some v := rfl

@[simp] theorem put_nil (x v : V) : put ([] : List S) x v = some x := rfl

open Node

theorem get_cons (s : S) (p : List S) (v : V) : get (s :: p) v = (child s v).bind (get p) :=
  rfl

theorem get_append (p q : List S) (v : V) : get (p ++ q) v = (get p v).bind (get q) := by
  induction p generalizing v with
  | nil => rfl
  | cons s p ih =>
    rw [List.cons_append, get_cons, get_cons, bind_assoc]
    congr 1
    funext c
    exact ih c

variable {p : List S} {v v' x y : V}

theorem put_cons_eq_some {s : S} (h : put (s :: p) x v = some v') :
    ∃ c c', child s v = some c ∧ put p x c = some c' ∧ replace s c' v = some v' := by
  rw [put, bind_eq_some_iff] at h
  obtain ⟨c, hc, h⟩ := h
  obtain ⟨c', hc', h⟩ := bind_eq_some_iff.1 h
  exact ⟨c, c', hc, hc', h⟩

theorem put_cons_of {s : S} {c c' : V} (hc : child s v = some c) (hc' : put p x c = some c') :
    put (s :: p) x v = replace s c' v := by
  rw [put, hc, bind_some, hc', bind_some]

theorem exists_put (x : V) (h : get p v = some y) : ∃ v', put p x v = some v' := by
  induction p generalizing v with
  | nil => exact ⟨x, rfl⟩
  | cons s p ih =>
    obtain ⟨c, hc, hget⟩ := bind_eq_some_iff.1 h
    obtain ⟨c', hc'⟩ := ih hget
    have hsome := replace_isSome c' hc
    exact ⟨_, (put_cons_of hc hc').trans (some_get hsome).symm⟩

/-- What was put is got back. -/
theorem get_put (h : put p x v = some v') : get p v' = some x := by
  induction p generalizing v v' with
  | nil => exact h.symm
  | cons s p ih =>
    obtain ⟨c, c', -, hput, hrep⟩ := put_cons_eq_some h
    rw [get_cons, child_replace hrep, bind_some, ih hput]

/-- A second `put` at the same place wins. -/
theorem put_put (h : put p x v = some v') : put p y v' = put p y v := by
  induction p generalizing v v' with
  | nil => rfl
  | cons s p ih =>
    obtain ⟨c, c', hc, hput, hrep⟩ := put_cons_eq_some h
    simp only [put, child_replace hrep, hc, bind_some, ih hput, replace_replace hrep]

theorem put_get (h : get p v = some y) : put p y v = some v := by
  induction p generalizing v with
  | nil => exact h.symm
  | cons s p ih =>
    obtain ⟨c, hc, hget⟩ := bind_eq_some_iff.1 h
    rw [put_cons_of hc (ih hget), replace_child hc]

theorem put_append {q : List S} {c c' : V} (hc : get p v = some c) (hc' : put q x c = some c') :
    put (p ++ q) x v = put p c' v := by
  induction p generalizing v with
  | nil =>
    obtain rfl : v = c := Option.some.inj hc
    exact hc'
  | cons s p ih =>
    obtain ⟨d, hd, hget⟩ := bind_eq_some_iff.1 hc
    rw [List.cons_append, put, put, hd, bind_some, bind_some, ih hget]

/-- Places neither of which is inside the other do not interfere. -/
theorem get_put_of_diverge {q : List S} (hpq : ¬ p <+: q) (hqp : ¬ q <+: p)
    (h : put q x v = some v') : get p v' = get p v := by
  induction q generalizing p v v' with
  | nil => exact absurd List.nil_prefix hqp
  | cons t q ih =>
    cases p with
    | nil => exact absurd List.nil_prefix hpq
    | cons s p =>
      obtain ⟨c, c', hc, hput, hrep⟩ := put_cons_eq_some h
      by_cases hst : s = t
      · subst hst
        have hget := ih (p := p) (fun hp => hpq (List.cons_prefix_cons.2 ⟨rfl, hp⟩))
          (fun hq => hqp (List.cons_prefix_cons.2 ⟨rfl, hq⟩)) hput
        rw [get_cons, get_cons, child_replace hrep, hc, bind_some, bind_some, hget]
      · rw [get_cons, get_cons, child_replace_ne (Ne.symm hst) hrep]

end Path
