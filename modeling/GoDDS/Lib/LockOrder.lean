import Mathlib.Data.Set.Finite.Lemmas
import Mathlib.Order.Interval.Finset.Nat

/-!
# Lock order

Threads take and release read-write locks.
-/

namespace LockOrder

open List hiding lt_irrefl

variable {L : Type*}

/-! ## Programs -/

inductive Mode where
  | read
  | write
  deriving DecidableEq

inductive Action (L : Type*) where
  | acquire (l : L) (m : Mode)
  | release (l : L) (m : Mode)

inductive Prog (L : Type*) where
  | skip
  | seq (p q : Prog L)
  | locked (l : L) (m : Mode) (body : Prog L)

namespace Prog

def lock (l : L) (body : Prog L) : Prog L := locked l .write body

def rlock (l : L) (body : Prog L) : Prog L := locked l .read body

def all (ps : List (Prog L)) : Prog L := ps.foldr seq skip

def when (b : Bool) (p : Prog L) : Prog L := if b then p else skip

def actions : Prog L → List (Action L)
  | skip => []
  | seq p q => p.actions ++ q.actions
  | locked l m body => .acquire l m :: (body.actions ++ [.release l m])

/-- Every lock has a rank of `b` at least, and a higher one than those it is taken under. -/
def Climbs (rank : L → Nat) : Nat → Prog L → Prop
  | _, skip => True
  | b, seq p q => Climbs rank b p ∧ Climbs rank b q
  | b, locked l _ body => b ≤ rank l ∧ Climbs rank (rank l + 1) body

variable {rank : L → Nat} {b : Nat}

@[simp] theorem climbs_skip : Climbs rank b skip := trivial

@[simp] theorem climbs_seq {p q : Prog L} :
    Climbs rank b (seq p q) ↔ Climbs rank b p ∧ Climbs rank b q := Iff.rfl

@[simp] theorem climbs_lock {l : L} {body : Prog L} :
    Climbs rank b (lock l body) ↔ b ≤ rank l ∧ Climbs rank (rank l + 1) body := Iff.rfl

@[simp] theorem climbs_rlock {l : L} {body : Prog L} :
    Climbs rank b (rlock l body) ↔ b ≤ rank l ∧ Climbs rank (rank l + 1) body := Iff.rfl

@[simp] theorem climbs_all_nil : Climbs rank b (all []) := trivial

@[simp] theorem climbs_all_cons {p : Prog L} {ps : List (Prog L)} :
    Climbs rank b (all (p :: ps)) ↔ Climbs rank b p ∧ Climbs rank b (all ps) := Iff.rfl

theorem climbs_all {ps : List (Prog L)} : Climbs rank b (all ps) ↔ ∀ p ∈ ps, Climbs rank b p := by
  induction ps with
  | nil => simp
  | cons p ps ih => rw [climbs_all_cons, forall_mem_cons, ih]

@[simp] theorem climbs_all_map {ι : Type*} {xs : List ι} {f : ι → Prog L} :
    Climbs rank b (all (xs.map f)) ↔ ∀ x ∈ xs, Climbs rank b (f x) := by
  rw [climbs_all, List.forall_mem_map]

@[simp] theorem climbs_all_replicate {n : Nat} {p : Prog L} :
    Climbs rank b (all (List.replicate n p)) ↔ (n ≠ 0 → Climbs rank b p) := by
  rw [climbs_all, forall_mem_replicate]
  tauto

@[simp] theorem climbs_when {c : Bool} {p : Prog L} :
    Climbs rank b (when c p) ↔ (c → Climbs rank b p) := by
  cases c <;> simp [when]

end Prog

structure Thread (L : Type*) where
  held : List (L × Mode)
  todo : List (Action L)

def Thread.start (p : Prog L) : Thread L := ⟨[], p.actions⟩

def Free (s : List (Thread L)) (l : L) (m : Mode) : Prop :=
  ∀ t ∈ s, ∀ h ∈ t.held, h.1 = l → h.2 = .read ∧ m = .read

instance [DecidableEq L] (s : List (Thread L)) (l : L) (m : Mode) : Decidable (Free s l m) :=
  inferInstanceAs (Decidable (∀ t ∈ s, ∀ h ∈ t.held, h.1 = l → h.2 = .read ∧ m = .read))

def step [DecidableEq L] (s : List (Thread L)) (i : Nat) : List (Thread L) :=
  match s[i]? with
  | none => s
  | some t =>
    match t.todo with
    | [] => s
    | .acquire l m :: rest => if Free s l m then s.set i ⟨(l, m) :: t.held, rest⟩ else s
    | .release l m :: rest => s.set i ⟨t.held.erase (l, m), rest⟩

def Wants (t : Thread L) (l : L) (m : Mode) : Prop := ∃ rest, t.todo = .acquire l m :: rest

/-- The other one holds the lock this one wants in a way that excludes it, or, for a reader, the
other one wants to write. -/
def WaitsFor (s : List (Thread L)) (i j : Nat) : Prop :=
  ∃ t u l m, s[i]? = some t ∧ s[j]? = some u ∧ Wants t l m ∧
    ((∃ m', (l, m') ∈ u.held ∧ ¬(m' = .read ∧ m = .read)) ∨ m = .read ∧ Wants u l .write)

def CircularWait (s : List (Thread L)) : Prop := ∃ i, Relation.TransGen (WaitsFor s) i i

/-! ## Order -/

/-- What is left takes locks in ascending order only and releases them all, the newest first. -/
def Ordered (rank : L → Nat) : List (L × Mode) → List (Action L) → Prop
  | held, [] => held = []
  | held, .acquire l m :: rest => (∀ h ∈ held, rank h.1 < rank l) ∧ Ordered rank ((l, m) :: held) rest
  | held, .release l m :: rest => ∃ held', held = (l, m) :: held' ∧ Ordered rank held' rest

variable {rank : L → Nat}

theorem ordered_actions_append {p : Prog L} {b : Nat} (hp : p.Climbs rank b)
    {held : List (L × Mode)} (hheld : ∀ h ∈ held, rank h.1 < b) {rest : List (Action L)}
    (hrest : Ordered rank held rest) : Ordered rank held (p.actions ++ rest) := by
  induction p generalizing b held rest with
  | skip => exact hrest
  | seq p q ihp ihq =>
    rw [Prog.actions, append_assoc]
    exact ihp hp.1 hheld (ihq hp.2 hheld hrest)
  | locked l m body ih =>
    rw [Prog.actions, cons_append, append_assoc]
    refine ⟨fun h hh => Nat.lt_of_lt_of_le (hheld h hh) hp.1, ih hp.2 ?_ ⟨held, rfl, hrest⟩⟩
    intro h hh
    obtain rfl | hh := mem_cons.1 hh
    · exact Nat.lt_succ_self _
    · exact Nat.lt_succ_of_lt (Nat.lt_of_lt_of_le (hheld h hh) hp.1)

/-- A climbing program takes its locks in order and releases them all. -/
theorem ordered_of_climbs {p : Prog L} (hp : p.Climbs rank 0) :
    Ordered rank (Thread.start p).held (Thread.start p).todo := by
  have hrest : Ordered rank ([] : List (L × Mode)) ([] : List (Action L)) := rfl
  have hall := ordered_actions_append hp (by simp) hrest
  rwa [append_nil] at hall

def AllOrdered (rank : L → Nat) (s : List (Thread L)) : Prop :=
  ∀ t ∈ s, Ordered rank t.held t.todo

variable {s : List (Thread L)}

theorem ordered_step [DecidableEq L] (h : AllOrdered rank s) (i : Nat) :
    AllOrdered rank (step s i) := by
  cases hi : s[i]? with
  | none =>
    rw [step, hi]
    exact h
  | some t =>
    have ht := h t (mem_of_getElem? hi)
    rw [step, hi]
    dsimp only
    cases htodo : t.todo with
    | nil => exact h
    | cons a rest =>
      rw [htodo] at ht
      cases a with
      | acquire l m =>
        dsimp only
        by_cases hfree : Free s l m
        · rw [if_pos hfree]
          intro u hu
          obtain hu | rfl := mem_or_eq_of_mem_set hu
          · exact h u hu
          · exact ht.2
        · rw [if_neg hfree]
          exact h
      | release l m =>
        obtain ⟨held', hheld, hrest⟩ := ht
        intro u hu
        obtain hu | rfl := mem_or_eq_of_mem_set hu
        · exact h u hu
        · rwa [hheld, erase_cons_head]

theorem ordered_foldl [DecidableEq L] (h : AllOrdered rank s)
    (schedule : List Nat) : AllOrdered rank (schedule.foldl step s) := by
  induction schedule generalizing s with
  | nil => exact h
  | cons i schedule ih => exact ih (ordered_step h i)

/-! ## Waiting climbs -/

/-- How high a thread reaches: by the rank of the lock it wants, writers above readers. -/
def reach (rank : L → Nat) (t : Thread L) : Nat :=
  match t.todo with
  | .acquire l .read :: _ => 2 * rank l
  | .acquire l .write :: _ => 2 * rank l + 1
  | _ => 0

theorem reach_of_wants (rank : L → Nat) {t : Thread L} {l : L} {m : Mode} (h : Wants t l m) :
    2 * rank l ≤ reach rank t ∧ reach rank t ≤ 2 * rank l + 1 := by
  obtain ⟨rest, hrest⟩ := h
  cases m <;> simp [reach, hrest]

theorem lt_reach_of_held {t : Thread L} (h : Ordered rank t.held t.todo) {l : L} {m : Mode}
    (hheld : (l, m) ∈ t.held) {l' : L} {m' : Mode} (hwants : Wants t l' m') :
    2 * rank l + 1 < reach rank t := by
  have hle := (reach_of_wants rank hwants).1
  obtain ⟨rest, hrest⟩ := hwants
  rw [hrest] at h
  have hlt : rank l < rank l' := h.1 _ hheld
  omega

theorem reach_lt_of_waitsFor (h : AllOrdered rank s) {i j : Nat}
    (hwait : WaitsFor s i j) {t u : Thread L} (hi : s[i]? = some t) (hj : s[j]? = some u)
    {l' : L} {m' : Mode} (hu : Wants u l' m') : reach rank t < reach rank u := by
  obtain ⟨t', u', l, m, hi', hj', hwants, hwhy⟩ := hwait
  obtain rfl := Option.some.inj (hi.symm.trans hi')
  obtain rfl := Option.some.inj (hj.symm.trans hj')
  have hle := reach_of_wants rank hwants
  obtain ⟨m'', hheld, -⟩ | ⟨rfl, rest, hwrite⟩ := hwhy
  · have hlt := lt_reach_of_held (h u (mem_of_getElem? hj)) hheld hu
    omega
  · obtain ⟨rest', hread⟩ := hwants
    simp [reach, hread, hwrite]

theorem wants_of_waitsFor {i j : Nat} (h : WaitsFor s i j) :
    ∃ t l m, s[i]? = some t ∧ Wants t l m := by
  obtain ⟨t, -, l, m, hi, -, hwants, -⟩ := h
  exact ⟨t, l, m, hi, hwants⟩

/-- Threads in order do not wait in a circle. -/
theorem not_circularWait (h : AllOrdered rank s) : ¬ CircularWait s := by
  rintro ⟨i, hcircle⟩
  -- along a chain of waiting threads the reach goes up
  have hup : ∀ j, Relation.TransGen (WaitsFor s) i j → ∀ t u, s[i]? = some t → s[j]? = some u →
      ∀ l m, Wants u l m → reach rank t < reach rank u := by
    intro j hchain
    induction hchain with
    | single hwait =>
      intro t u hi hj l m hu
      exact reach_lt_of_waitsFor h hwait hi hj hu
    | tail _ hwait ih =>
      intro t u hi hj l m hu
      obtain ⟨v, l', m', hv, hvwants⟩ := wants_of_waitsFor hwait
      exact (ih t v hi hv l' m' hvwants).trans (reach_lt_of_waitsFor h hwait hv hj hu)
  obtain ⟨j, hfirst, -⟩ := Relation.TransGen.head'_iff.1 hcircle
  obtain ⟨t, l, m, hi, hwants⟩ := wants_of_waitsFor hfirst
  exact lt_irrefl _ (hup i hcircle t t hi hi l m hwants)

theorem busy_of_waitsFor (h : AllOrdered rank s) {i j : Nat}
    (hwait : WaitsFor s i j) : ∃ u, s[j]? = some u ∧ u.todo ≠ [] := by
  obtain ⟨-, u, l, m, -, hj, -, hwhy⟩ := hwait
  refine ⟨u, hj, fun hdone => ?_⟩
  obtain ⟨m', hheld, -⟩ | ⟨-, rest, hwants⟩ := hwhy
  · have hu := h u (mem_of_getElem? hj)
    rw [hdone] at hu
    rw [show u.held = [] from hu] at hheld
    exact absurd hheld not_mem_nil
  · exact absurd (hdone.symm.trans hwants) (by simp)

/-- Of threads in order one can go on. -/
theorem exists_unblocked (h : AllOrdered rank s) (hbusy : ∃ t ∈ s, t.todo ≠ []) :
    ∃ i t, s[i]? = some t ∧ t.todo ≠ [] ∧ ∀ j, ¬ WaitsFor s i j := by
  by_contra hall
  have hblocked : ∀ i t, s[i]? = some t → t.todo ≠ [] → ∃ j, WaitsFor s i j := by
    intro i t hi htodo
    by_contra hfree
    push Not at hfree
    exact hall ⟨i, t, hi, htodo, hfree⟩
  -- the busy thread that reaches highest waits for one that reaches higher
  let busy : Set Nat := {i | ∃ t : Thread L, s[i]? = some t ∧ t.todo ≠ []}
  have hfinite : busy.Finite := by
    refine (Set.finite_Iio s.length).subset ?_
    rintro i ⟨t, hi, -⟩
    exact (List.getElem?_eq_some_iff.1 hi).1
  have hnonempty : busy.Nonempty := by
    obtain ⟨t, ht, htodo⟩ := hbusy
    obtain ⟨i, hi⟩ := mem_iff_getElem?.1 ht
    exact ⟨i, t, hi, htodo⟩
  obtain ⟨i, ⟨t, hi, htodo⟩, hmax⟩ := Set.exists_max_image busy
    (fun i => (s[i]?).elim 0 (reach rank)) hfinite hnonempty
  obtain ⟨j, hwait⟩ := hblocked i t hi htodo
  obtain ⟨u, hj, hutodo⟩ := busy_of_waitsFor h hwait
  have hle : reach rank u ≤ reach rank t := by
    have hle := hmax j ⟨u, hj, hutodo⟩
    simpa [hi, hj] using hle
  obtain ⟨k, hwait'⟩ := hblocked j u hj hutodo
  obtain ⟨u', l, m, hj', hwants⟩ := wants_of_waitsFor hwait'
  obtain rfl := Option.some.inj (hj.symm.trans hj')
  have hlt := reach_lt_of_waitsFor h hwait hi hj hwants
  omega

end LockOrder
