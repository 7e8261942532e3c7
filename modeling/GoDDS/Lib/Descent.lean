import GoDDS.Lib.Fuel

/-!
# Recursive descent
-/

namespace Fuel

open Outcome

variable {τ ε α : Type}

abbrev Parser (τ ε α : Type) := List τ → Outcome ε (α × List τ)

def chainLoop (sep : τ → Bool) (node : α → α → α) (next : Parser τ ε α) : Nat → α → Parser τ ε α
  | 0, _, _ => .exhausted
  | _ + 1, left, [] => .ok (left, [])
  | n + 1, left, t :: ts =>
    if sep t then do
      let right ← next ts
      chainLoop sep node next n (node left right.1) right.2
    else .ok (left, t :: ts)

/-- A chain of operators of one precedence, associated to the left. -/
def chain (sep : τ → Bool) (node : α → α → α) (next : Parser τ ε α) (n : Nat) : Parser τ ε α :=
  fun ts => do
    let left ← next ts
    chainLoop sep node next n left.1 left.2

variable {sep : τ → Bool} {node : α → α → α}

/-! ## Progress -/

def Consumes (p : Parser τ ε α) : Prop :=
  ∀ ⦃ts r⦄, p ts = .ok r → r.2.length < ts.length

theorem chainLoop_length {next : Parser τ ε α} (hnext : Consumes next) {n : Nat} {left : α}
    {ts : List τ} {r : α × List τ} (h : chainLoop sep node next n left ts = .ok r) :
    r.2.length ≤ ts.length := by
  induction n generalizing left ts with
  | zero => cases h
  | succ n ih =>
    cases ts with
    | nil => cases h; exact Nat.le_refl _
    | cons t ts =>
      rw [chainLoop] at h
      split_ifs at h with hsep
      · obtain ⟨right, hright, h⟩ := bind_eq_ok.1 h
        have hfirst := hnext hright
        have hrest := ih h
        simp only [List.length_cons]
        omega
      · cases h
        exact Nat.le_refl _

/-- A chain takes tokens if the parser of its parts does. -/
theorem Consumes.chain {next : Parser τ ε α} (hnext : Consumes next) (n : Nat) :
    Consumes (chain sep node next n) := by
  intro ts r h
  obtain ⟨left, hleft, h⟩ := bind_eq_ok.1 h
  exact Nat.lt_of_le_of_lt (chainLoop_length hnext h) (hnext hleft)

theorem chainLoop_ne_exhausted {next : Parser τ ε α} (hnext : Consumes next) {L : Nat}
    (hsuff : ∀ us : List τ, us.length < L → next us ≠ .exhausted) {n : Nat} {left : α} {ts : List τ}
    (hL : ts.length ≤ L) (hn : ts.length < n) : chainLoop sep node next n left ts ≠ .exhausted := by
  induction n generalizing left ts with
  | zero => omega
  | succ n ih =>
    cases ts with
    | nil => simp [chainLoop]
    | cons t ts =>
      simp only [List.length_cons] at hL hn
      rw [chainLoop]
      split_ifs with hsep
      · refine bind_ne_exhausted (hsuff ts (by omega)) fun right hright => ?_
        have hlen := hnext hright
        exact ih (by omega) (by omega)
      · simp

/-- A chain needs no more fuel than it has tokens. -/
theorem chain_ne_exhausted {next : Parser τ ε α} (hnext : Consumes next) {n : Nat} {ts : List τ}
    (hsuff : ∀ us : List τ, us.length ≤ ts.length → next us ≠ .exhausted) (hn : ts.length ≤ n) :
    chain sep node next n ts ≠ .exhausted := by
  refine bind_ne_exhausted (hsuff ts (Nat.le_refl _)) fun left hleft => ?_
  have hlen := hnext hleft
  exact chainLoop_ne_exhausted hnext (fun us hus => hsuff us (Nat.le_of_lt hus)) (Nat.le_of_lt hlen)
    (by omega)

def SteadyParser (p : Nat → Parser τ ε α) : Prop := ∀ ts, Outcome.Steady fun n => p n ts

theorem SteadyParser.le {p : Nat → Parser τ ε α} (hp : SteadyParser p) {n m : Nat} (hnm : n ≤ m)
    (ts : List τ) : Outcome.Le (p n ts) (p m ts) :=
  (hp ts).le hnm

theorem chainLoop_le {p q : Parser τ ε α} (hpq : ∀ ts, Outcome.Le (p ts) (q ts)) {n m : Nat}
    (hnm : n ≤ m) (left : α) (ts : List τ) :
    Outcome.Le (chainLoop sep node p n left ts) (chainLoop sep node q m left ts) := by
  induction n generalizing m left ts with
  | zero => exact .exhausted _
  | succ n ih =>
    obtain ⟨m, rfl⟩ : ∃ k, m = k + 1 := ⟨m - 1, by omega⟩
    cases ts with
    | nil => exact .refl _
    | cons t ts =>
      rw [chainLoop, chainLoop]
      split_ifs with hsep
      · exact (hpq ts).bind fun right => ih (by omega) _ _
      · exact .refl _

theorem steady_chainLoop {next : Nat → Parser τ ε α} (hnext : SteadyParser next) (left : α)
    (ts : List τ) : Outcome.Steady fun n => chainLoop sep node (next n) n left ts :=
  fun n => chainLoop_le (hnext.le (Nat.le_succ n)) (Nat.le_succ n) left ts

theorem SteadyParser.chain {next : Nat → Parser τ ε α} (hnext : SteadyParser next) :
    SteadyParser fun n => chain sep node (next n) n :=
  fun ts => (hnext ts).bind fun left => steady_chainLoop hnext left.1 left.2

/-- With enough fuel the parser reads `ts` as `a`, whatever follows, as long as it stops there. -/
def Reads (p : Nat → Parser τ ε α) (stop : List τ → Prop) (ts : List τ) (a : α) : Prop :=
  ∀ rest, stop rest → Outcome.Returns (fun n => p n (ts ++ rest)) (a, rest)

def NoSep (sep : τ → Bool) (ts : List τ) : Prop := ∀ t ∈ ts.head?, sep t = false

def Chained (sep : τ → Bool) (node : α → α → α) (next : Nat → Parser τ ε α)
    (stop : List τ → Prop) (ts : List τ) (a : α) : Prop :=
  ∀ rest, stop rest → ∀ r, Outcome.Returns (fun n => chainLoop sep node (next n) n a rest) r →
    Outcome.Returns (fun n => chain sep node (next n) n (ts ++ rest)) r

section Chain

variable {next : Nat → Parser τ ε α} {stop : List τ → Prop}

theorem Chained.of_reads (hnext : SteadyParser next) {ts : List τ} {a : α}
    (h : Reads next stop ts a) : Chained sep node next stop ts a := by
  intro rest hstop r hr
  exact (returns_bind_iff (hnext _) fun left => steady_chainLoop hnext _ _).2
    ⟨(a, rest), h rest hstop, hr⟩

theorem Chained.snoc (hnext : SteadyParser next) (hstop : ∀ t ts, sep t → stop (t :: ts))
    {ts us : List τ} {a b : α} (hts : Chained sep node next stop ts a)
    (hus : Reads next stop us b) {t : τ} (ht : sep t) :
    Chained sep node next stop (ts ++ t :: us) (node a b) := by
  intro rest hrest r hr
  have hloop : Outcome.Returns (fun n => chainLoop sep node (next n) n a (t :: (us ++ rest))) r := by
    obtain ⟨n, hn⟩ := hus rest hrest
    obtain ⟨m, hm⟩ := hr
    have hn' : n ≤ max n m + 1 := by omega
    have hm' : m ≤ max n m + 1 := by omega
    have hright : next (max n m + 1) (us ++ rest) = .ok (b, rest) :=
      ((hnext.le hn' _).eq_of_ne (by simp [hn])).trans hn
    have hleft : Outcome.Le (chainLoop sep node (next m) m (node a b) rest)
        (chainLoop sep node (next (max n m + 1)) (max n m) (node a b) rest) :=
      chainLoop_le (hnext.le hm') (Nat.le_max_right n m) _ _
    refine ⟨max n m + 1, ?_⟩
    show chainLoop sep node (next (max n m + 1)) (max n m + 1) a (t :: (us ++ rest)) = .ok r
    rw [chainLoop, if_pos ht, hright]
    exact (hleft.eq_of_ne (by simp [hm])).trans hm
  have h := hts (t :: (us ++ rest)) (hstop t _ ht) r hloop
  simpa using h

/-- What is written as a chain is read as one. -/
theorem Chained.reads {ts : List τ} {a : α} (h : Chained sep node next stop ts a) :
    Reads (fun n => chain sep node (next n) n) (fun rest => stop rest ∧ NoSep sep rest) ts a := by
  intro rest hrest
  refine h rest hrest.1 _ ⟨1, ?_⟩
  cases rest with
  | nil => rfl
  | cons t rest => simp [chainLoop, hrest.2 t rfl]

end Chain

/-! ## Lists of items -/

/-- Items, each given its first token, until a token that stops them or the end; `acc` are there
already. -/
def manyUntil (stop : τ → Bool) (item : τ → Parser τ ε α) : Nat → List α → Parser τ ε (List α)
  | 0, _, _ => .exhausted
  | _ + 1, acc, [] => .ok (acc, [])
  | n + 1, acc, t :: ts =>
    if stop t then .ok (acc, t :: ts)
    else do
      let a ← item t ts
      manyUntil stop item n (acc ++ [a.1]) a.2

/-- The computation does not run out of fuel and leaves at most `L` tokens. -/
def Within (L : Nat) (x : Outcome ε (α × List τ)) : Prop :=
  x ≠ .exhausted ∧ ∀ r, x = .ok r → r.2.length ≤ L

section Many

variable {β : Type} {L : Nat}

@[simp] theorem within_ok {a : α} {us : List τ} :
    Within L (.ok (a, us) : Outcome ε (α × List τ)) ↔ us.length ≤ L := by
  simp [Within]

@[simp] theorem within_error (e : ε) : Within L (.error e : Outcome ε (α × List τ)) := by
  simp [Within]

theorem Within.mono {x : Outcome ε (α × List τ)} {K : Nat} (h : Within K x) (hKL : K ≤ L) :
    Within L x :=
  ⟨h.1, fun r hr => Nat.le_trans (h.2 r hr) hKL⟩

theorem Within.bind {x : Outcome ε (α × List τ)} {f : α × List τ → Outcome ε (β × List τ)} {K : Nat}
    (hx : Within K x) (hf : ∀ r, r.2.length ≤ K → Within L (f r)) : Within L (x >>= f) := by
  refine ⟨bind_ne_exhausted hx.1 fun r hr => (hf r (hx.2 r hr)).1, fun r hr => ?_⟩
  obtain ⟨a, ha, h⟩ := bind_eq_ok.1 hr
  exact (hf a (hx.2 a ha)).2 r h

/-- A list of items takes tokens and needs no more fuel than it has tokens, if its items do. -/
theorem Within.manyUntil {stop : τ → Bool} {item : τ → Parser τ ε α}
    (hitem : ∀ t us, us.length < L → Within us.length (item t us)) {n : Nat} {acc : List α}
    {ts : List τ} (hL : ts.length ≤ L) (hn : ts.length < n) :
    Within ts.length (manyUntil stop item n acc ts) := by
  induction n generalizing acc ts with
  | zero => omega
  | succ n ih =>
    cases ts with
    | nil => simp [Fuel.manyUntil]
    | cons t ts =>
      simp only [List.length_cons] at hL hn
      rw [Fuel.manyUntil]
      split_ifs with hstop
      · simp
      · refine (hitem t ts (by omega)).bind fun a ha => ?_
        refine (ih (by omega) (by omega)).mono ?_
        simp only [List.length_cons]
        omega

end Many

end Fuel
