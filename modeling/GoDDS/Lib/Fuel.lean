import Mathlib.Data.List.Forall2
import Mathlib.Order.Basic

/-!
# Recursion with fuel
-/

namespace Fuel

open List

/-- A recursive function takes a number of steps it may use; its outcome is `exhausted` if these do
not suffice. -/
inductive Outcome (ε α : Type) where
  | exhausted
  | error (e : ε)
  | ok (a : α)
  deriving DecidableEq

namespace Outcome

variable {ε α β : Type}

def bind (x : Outcome ε α) (f : α → Outcome ε β) : Outcome ε β :=
  match x with
  | exhausted => exhausted
  | error e => error e
  | ok a => f a

instance : Monad (Outcome ε) where
  pure := ok
  bind := bind

@[simp] theorem pure_eq (a : α) : (pure a : Outcome ε α) = ok a := rfl

@[simp] theorem ok_bind (a : α) (f : α → Outcome ε β) : (ok a >>= f : Outcome ε β) = f a := rfl

@[simp] theorem error_bind (e : ε) (f : α → Outcome ε β) :
    (error e >>= f : Outcome ε β) = error e := rfl

@[simp] theorem exhausted_bind (f : α → Outcome ε β) :
    (exhausted >>= f : Outcome ε β) = exhausted := rfl

theorem bind_eq_ok {x : Outcome ε α} {f : α → Outcome ε β} {b : β} :
    x >>= f = ok b ↔ ∃ a, x = ok a ∧ f a = ok b := by
  cases x <;> simp

theorem bind_ne_exhausted {x : Outcome ε α} {f : α → Outcome ε β} (hx : x ≠ exhausted)
    (hf : ∀ a, x = ok a → f a ≠ exhausted) : x >>= f ≠ exhausted := by
  cases x with
  | exhausted => exact absurd rfl hx
  | error e => simp
  | ok a => exact hf a rfl

def each (f : α → Outcome ε β) : List α → Outcome ε (List β)
  | [] => ok []
  | a :: as => do
    let b ← f a
    let bs ← each f as
    ok (b :: bs)

section

variable {f : α → Outcome ε β} {as : List α} {bs : List β}

theorem each_eq_ok : each f as = ok bs ↔ List.Forall₂ (fun a b => f a = ok b) as bs := by
  induction as generalizing bs with
  | nil => simp [each, eq_comm]
  | cons a as ih =>
    simp only [each, bind_eq_ok, ih, ok.injEq, forall₂_cons_left_iff]
    constructor
    · rintro ⟨b, hb, bs', hbs, rfl⟩
      exact ⟨b, bs', hb, hbs, rfl⟩
    · rintro ⟨b, bs', hb, hbs, rfl⟩
      exact ⟨b, hb, bs', hbs, rfl⟩

theorem map_of_each {γ : Type} {v : α → γ} {w : β → γ} (h : each f as = ok bs)
    (hvw : ∀ a b, f a = ok b → w b = v a) :
    bs.map w = as.map v := by
  have hall : List.Forall₂ (fun c d => c = d) (bs.map w) (as.map v) := by
    rw [forall₂_map_left_iff, forall₂_map_right_iff]
    exact ((each_eq_ok.1 h).imp hvw).flip
  rwa [forall₂_eq_eq_eq] at hall

theorem forall_of_each {P : α → Prop} {Q : β → Prop} (h : each f as = ok bs)
    (hPQ : ∀ a b, f a = ok b → (Q b ↔ P a)) :
    (∀ b ∈ bs, Q b) ↔ ∀ a ∈ as, P a := by
  have hmap := map_of_each (v := P) (w := Q) h fun a b hab => propext (hPQ a b hab)
  have hall := congrArg (fun ps => ∀ p ∈ ps, p) hmap
  simpa only [List.forall_mem_map, eq_iff_iff] using hall

theorem each_eq_exhausted (hf : ∀ a e, f a ≠ error e) {a : α}
    (ha : a ∈ as) (hfa : f a = exhausted) : each f as = exhausted := by
  induction as with
  | nil => simp at ha
  | cons a' as ih =>
    rw [each]
    cases hb : f a' with
    | exhausted => rfl
    | error e => exact absurd hb (hf a' e)
    | ok b =>
      have hne : a ≠ a' := fun h => by simp [← h, hfa] at hb
      rw [ok_bind, ih (mem_of_ne_of_mem hne ha), exhausted_bind]

end

/-! ## More fuel -/

/-- The second outcome is the first one, unless the first ran out of fuel. -/
def Le (x y : Outcome ε α) : Prop := x = exhausted ∨ x = y

variable {x y z : Outcome ε α}

theorem Le.refl (x : Outcome ε α) : Le x x := .inr rfl

theorem Le.exhausted (x : Outcome ε α) : Le .exhausted x := .inl rfl

theorem Le.trans (hxy : Le x y) (hyz : Le y z) : Le x z := by
  rcases hxy with h | rfl
  · exact .inl h
  · exact hyz

theorem Le.eq_of_ne (h : Le x y) (hx : x ≠ .exhausted) : y = x :=
  (h.resolve_left hx).symm

theorem Le.bind {f g : α → Outcome ε β} (hxy : Le x y)
    (hfg : ∀ a, Le (f a) (g a)) : Le (x >>= f) (y >>= g) := by
  rcases hxy with rfl | rfl
  · exact .exhausted _
  · cases x with
    | exhausted => exact .exhausted _
    | error e => exact .refl _
    | ok a => exact hfg a

/-- More fuel never changes another outcome. -/
def Steady (f : Nat → Outcome ε α) : Prop := ∀ n, Le (f n) (f (n + 1))

variable {f : Nat → Outcome ε α} {g : Nat → α → Outcome ε β}

theorem steady_const (x : Outcome ε α) : Steady fun _ => x := fun _ => .refl x

theorem Steady.le (h : Steady f) {n m : Nat} (hnm : n ≤ m) : Le (f n) (f m) := by
  induction hnm with
  | refl => exact .refl _
  | step _ ih => exact ih.trans (h _)

theorem Steady.bind (hf : Steady f)
    (hg : ∀ a, Steady fun n => g n a) : Steady fun n => f n >>= g n :=
  fun n => (hf n).bind fun a => hg a n

theorem Le.each {f g : α → Outcome ε β} {as : List α} (h : ∀ a ∈ as, Le (f a) (g a)) :
    Le (each f as) (each g as) := by
  induction as with
  | nil => exact .refl _
  | cons a as ih =>
    rw [forall_mem_cons] at h
    exact h.1.bind fun b => (ih h.2).bind fun bs => .refl _

def Returns (f : Nat → Outcome ε α) (a : α) : Prop := ∃ n, f n = ok a

theorem Returns.eq_of_ne (hf : Steady f) {a : α} (h : Returns f a) {n : Nat}
    (hn : f n ≠ exhausted) : f n = ok a := by
  obtain ⟨m, hm⟩ := h
  rcases Nat.le_total n m with hle | hle
  · exact ((hf.le hle).eq_of_ne hn).symm.trans hm
  · exact ((hf.le hle).eq_of_ne (by simp [hm])).trans hm

theorem returns_bind_iff (hf : Steady f) (hg : ∀ a, Steady fun n => g n a) {b : β} :
    Returns (fun n => f n >>= g n) b ↔ ∃ a, Returns f a ∧ Returns (fun n => g n a) b := by
  constructor
  · rintro ⟨n, hn⟩
    obtain ⟨a, ha, hb⟩ := bind_eq_ok.1 hn
    exact ⟨a, ⟨n, ha⟩, n, hb⟩
  · rintro ⟨a, ⟨n, hn⟩, m, hm⟩
    refine ⟨max n m, bind_eq_ok.2 ⟨a, ?_, ?_⟩⟩
    · exact ((hf.le (Nat.le_max_left n m)).eq_of_ne (by simp [hn])).trans hn
    · exact (((hg a).le (Nat.le_max_right n m)).eq_of_ne (by simp [hm])).trans hm

/-- Some amount of fuel suffices. -/
def Halts (f : Nat → Outcome ε α) : Prop := ∃ n, f n ≠ exhausted

theorem halts_ok (a : α) : Halts fun _ => (ok a : Outcome ε α) := ⟨0, by simp⟩

theorem Halts.of_succ {f g : Nat → Outcome ε α} (hg : Halts g) (h : ∀ n, f (n + 1) = g n) :
    Halts f := by
  obtain ⟨n, hn⟩ := hg
  exact ⟨n + 1, by rw [h]; exact hn⟩

theorem Halts.map (hf : Halts f) (w : α → β) : Halts fun n => f n >>= fun a => ok (w a) := by
  obtain ⟨n, hn⟩ := hf
  exact ⟨n, bind_ne_exhausted hn fun a _ => by simp⟩

theorem Halts.settles (hf : Steady f) (h : Halts f) :
    ∃ n, f n ≠ exhausted ∧ ∀ k, n ≤ k → f k = f n := by
  obtain ⟨n, hn⟩ := h
  exact ⟨n, hn, fun k hk => (hf.le hk).eq_of_ne hn⟩

theorem Halts.bind (hf : Steady f)
    (hg : ∀ a, Steady fun n => g n a) (hfh : Halts f) (hgh : ∀ a, Halts fun n => g n a) :
    Halts fun n => f n >>= g n := by
  obtain ⟨n, hn, hfn⟩ := hfh.settles hf
  cases hx : f n with
  | exhausted => exact absurd hx hn
  | error e => exact ⟨n, by simp [hx]⟩
  | ok a =>
    obtain ⟨k, hk, hgk⟩ := (hgh a).settles (hg a)
    refine ⟨max n k, ?_⟩
    dsimp only at hgk ⊢
    rw [hfn _ (Nat.le_max_left n k), hx, ok_bind, hgk _ (Nat.le_max_right n k)]
    exact hk

theorem Halts.map₂ {γ : Type} {g : Nat → Outcome ε β} (hf : Steady f)
    (hg : Steady g) (hfh : Halts f) (hgh : Halts g) (w : α → β → γ) :
    Halts fun n => f n >>= fun a => g n >>= fun b => ok (w a b) :=
  hfh.bind hf (fun _ => hg.bind fun _ => steady_const _) fun a => hgh.map (w a)

theorem Halts.each {f : Nat → α → Outcome ε β} (hf : ∀ a, Steady fun n => f n a) {as : List α}
    (h : ∀ a ∈ as, Halts fun n => f n a) : Halts fun n => each (f n) as := by
  induction as with
  | nil => exact halts_ok _
  | cons a as ih =>
    rw [forall_mem_cons] at h
    have hrest : Steady fun n => Outcome.each (f n) as := fun n => .each fun a _ => hf a n
    exact h.1.map₂ (hf a) hrest (ih h.2) fun b bs => b :: bs

end Outcome

end Fuel
