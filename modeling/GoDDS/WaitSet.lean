import GoDDS.Lib.Run
import GoDDS.Lib.Select

/-!
# Waiting for several subscribers

`WaitSet.Wait` of `dds.go`: a loop of selects over the context and the subscribers' channels. A
channel found closed is replaced by the default case, and a second default makes the next select
panic.
-/

namespace GoDDS.WaitSet

open Select List Case Run Chan

variable {σ α : Type*}

/-! ## The loop -/

inductive Source (σ : Type*) where
  | done
  | sub (s : σ)

inductive Result (σ α : Type*) where
  | sample (x : α) (s : σ)
  | ctxErr
  | errClosed
  | panicked
  deriving DecidableEq

/-- A call of `Wait` and its channels. The ghost `arrived` is all that has been in a channel since
the call. -/
structure State (σ α : Type*) where
  snapshot : List σ
  chans : σ → Chan α
  arrived : σ → List α
  done : Bool
  cases : List (Case (Source σ))
  result : Option (Result σ α)

namespace State

def start (subs : List σ) (chans : σ → Chan α) (done : Bool) : State σ α :=
  { snapshot := subs
    chans := chans
    arrived := fun s => (chans s).queue
    done := done
    cases := .recv .done :: subs.map fun s => .recv (.sub s)
    result := none }

def ready (w : State σ α) : Source σ → Bool
  | .done => w.done
  | .sub s => (w.chans s).ready

/-- A channel is found closed: its case becomes a default. After the last the context's error is
preferred. -/
def strike (w : State σ α) (i : Nat) : State σ α :=
  let cases := w.cases.set i .default
  { w with
    cases := cases
    result := if cases.tail.all Case.isDefault then
        some (if w.done then .ctxErr else .errClosed)
      else w.result }

def take [DecidableEq σ] (w : State σ α) (i : Nat) (s : σ) (x : α) (rest : List α) : State σ α :=
  { w with
    chans := Function.update w.chans s { w.chans s with queue := rest }
    result := some ((w.snapshot[i - 1]?).elim .panicked fun s => .sample x s) }

/-- The loop goes on with the case taken. A default reports no sample, as a closed channel does. -/
def proceed [DecidableEq σ] (w : State σ α) (i : Nat) : State σ α :=
  if i = 0 then { w with result := some .ctxErr }
  else
    match w.cases[i]? with
    | some (.recv (.sub s)) =>
      match (w.chans s).queue with
      | x :: rest => w.take i s x rest
      | [] => w.strike i
    | _ => w.strike i

def iterate [DecidableEq σ] (w : State σ α) (choice : Nat) : State σ α :=
  match Select.select w.ready w.cases choice with
  | .refused => { w with result := some .panicked }
  | .blocked => w
  | .chosen i => w.proceed i

end State

inductive Event (σ α : Type*) where
  | arrive (s : σ) (x : α)
  | close (s : σ)
  | cancel
  | select (choice : Nat)

def step [DecidableEq σ] (w : State σ α) : Event σ α → State σ α
  | .arrive s x =>
    { w with
      chans := Function.update w.chans s ((w.chans s).send x)
      arrived := if (w.chans s).closed then w.arrived
        else Function.update w.arrived s (w.arrived s ++ [x]) }
  | .close s => { w with chans := Function.update w.chans s (w.chans s).close }
  | .cancel => { w with done := true }
  | .select choice =>
    match w.result with
    | none => w.iterate choice
    | some _ => w

/-! ## What the cases stand for -/

/-- The first case is the context; the others are those of the subscribers, with the default for
some that are closed and drained. -/
structure Inv (w : State σ α) : Prop where
  done : w.cases[0]? = some (.recv .done)
  length : w.cases.length = w.snapshot.length + 1
  subs : ∀ i s, w.snapshot[i]? = some s → w.cases[i + 1]? = some (.recv (.sub s)) ∨
    w.cases[i + 1]? = some .default ∧ (w.chans s).Drained

variable {c : Case (Source σ)} {e : Event σ α}

namespace Inv

variable {w : State σ α}

theorem start (subs : List σ) (chans : σ → Chan α) (done : Bool) :
    Inv (State.start subs chans done) := by
  refine ⟨rfl, by simp [State.start], fun i s hs => .inl ?_⟩
  show (subs.map fun s => Case.recv (Source.sub s))[i]? = _
  rw [getElem?_map, show subs[i]? = some s from hs, Option.map_some]

theorem case_eq (h : Inv w) {i : Nat} (hi : i ≠ 0) (hc : w.cases[i]? = some c) :
    ∃ s, w.snapshot[i - 1]? = some s ∧
      (c = .recv (.sub s) ∨ c = .default ∧ (w.chans s).Drained) := by
  obtain ⟨j, rfl⟩ := Nat.exists_eq_succ_of_ne_zero hi
  have hlt : j < w.snapshot.length := by
    have hlen := (List.getElem?_eq_some_iff.1 hc).1
    have hcases := h.length
    omega
  refine ⟨w.snapshot[j], getElem?_eq_getElem hlt, ?_⟩
  have hj := h.subs j _ (getElem?_eq_getElem hlt)
  rw [Nat.succ_eq_add_one] at hc
  simpa [hc] using hj

theorem of_drained (h : Inv w) {w' : State σ α} (hcases : w'.cases = w.cases)
    (hsnapshot : w'.snapshot = w.snapshot)
    (hdrained : ∀ s, (w.chans s).Drained → (w'.chans s).Drained) : Inv w' := by
  refine ⟨by rw [hcases, h.done], by rw [hcases, hsnapshot, h.length], fun i s hs => ?_⟩
  rw [hsnapshot] at hs
  rw [hcases]
  exact (h.subs i s hs).imp_right fun hd => ⟨hd.1, hdrained s hd.2⟩

theorem strike (h : Inv w) {i : Nat} (hi : i ≠ 0)
    (hdrained : ∀ s, w.snapshot[i - 1]? = some s → (w.chans s).Drained) : Inv (w.strike i) := by
  refine ⟨?_, ?_, fun j s hs => ?_⟩
  · show (w.cases.set i .default)[0]? = _
    rw [getElem?_set_ne hi, h.done]
  · show (w.cases.set i .default).length = w.snapshot.length + 1
    rw [length_set, h.length]
  · show (w.cases.set i .default)[j + 1]? = _ ∨ (w.cases.set i .default)[j + 1]? = _ ∧ _
    have hlt : j < w.snapshot.length := (List.getElem?_eq_some_iff.1 hs).1
    by_cases hj : i = j + 1
    · subst hj
      exact .inr ⟨getElem?_set_self (by rw [h.length]; omega), hdrained s hs⟩
    · rw [getElem?_set_ne hj]
      exact h.subs j s hs

end Inv

/-- Where this select finds the channel of a subscriber closed and drained. -/
def finds (w : State σ α) (choice : Nat) : Option Nat :=
  match Select.select w.ready w.cases choice with
  | .chosen i =>
    match w.cases[i]? with
    | some (.recv (.sub s)) => if (w.chans s).queue.isEmpty then some i else none
    | _ => none
  | _ => none

inductive Pass [DecidableEq σ] (w : State σ α) (choice : Nat) : State σ α → Prop
  | refused : 1 < w.cases.countP Case.isDefault →
      Pass w choice { w with result := some .panicked }
  | blocked : readyCases w.ready w.cases = [] → finds w choice = none → Pass w choice w
  | cancelled : w.done = true → finds w choice = none →
      Pass w choice { w with result := some .ctxErr }
  | sampled (i : Nat) (s : σ) (x : α) (rest : List α) : i ≠ 0 → finds w choice = none →
      w.snapshot[i - 1]? = some s → (w.chans s).queue = x :: rest →
      Pass w choice
        { w with
          chans := Function.update w.chans s { w.chans s with queue := rest }
          result := some (.sample x s) }
  | idle (i : Nat) : i ≠ 0 → finds w choice = none → readyCases w.ready w.cases = [] →
      w.cases[i]? = some .default →
      (∀ s, w.snapshot[i - 1]? = some s → (w.chans s).Drained) → Pass w choice (w.strike i)
  | closed (i : Nat) (ch : Source σ) : i ≠ 0 → finds w choice = some i →
      w.cases[i]? = some (.recv ch) →
      (∀ s, w.snapshot[i - 1]? = some s → (w.chans s).Drained) → Pass w choice (w.strike i)

open State

theorem pass_iterate [DecidableEq σ] {w : State σ α} (h : Inv w) (choice : Nat) :
    Pass w choice (w.iterate choice) := by
  rw [State.iterate]
  cases hsel : Select.select w.ready w.cases choice with
  | refused =>
    refine .refused (Nat.lt_of_not_le fun hle => ?_)
    exact select_ne_refused hle hsel
  | blocked => exact .blocked (readyCases_of_blocked hsel) (by simp [finds, hsel])
  | chosen i =>
    dsimp only
    have htaken := select_eq_chosen hsel
    by_cases hi : i = 0
    · subst hi
      rw [h.done] at htaken
      obtain ⟨ch, hch, hready⟩ | ⟨habsurd, -⟩ := htaken
      · have hdone : ch = .done := by simpa using hch.symm
        subst hdone
        exact .cancelled hready (by simp [finds, hsel, h.done])
      · exact absurd habsurd (by simp)
    rw [proceed, if_neg hi]
    obtain ⟨ch, hch, hready⟩ | ⟨hdefault, hnone⟩ := htaken
    · obtain ⟨s, hs, hcase | hcase⟩ := h.case_eq hi hch
      · obtain rfl := recv.inj hcase
        rw [hch]
        dsimp only
        cases hqueue : (w.chans s).queue with
        | nil =>
          refine .closed i _ hi (by simp [finds, hsel, hch, hqueue]) hch fun t ht => ?_
          obtain rfl := Option.some.inj (hs.symm.trans ht)
          exact drained_of_ready hready hqueue
        | cons x rest =>
          have hpass : Pass w choice _ := .sampled i s x rest hi
            (by simp [finds, hsel, hch, hqueue]) hs hqueue
          simpa [State.take, hs] using hpass
      · exact absurd hcase.1 (by simp)
    · obtain ⟨s, hs, hcase | hcase⟩ := h.case_eq hi hdefault
      · exact absurd hcase (by simp)
      · rw [hdefault]
        refine .idle i hi (by simp [finds, hsel, hdefault]) hnone hdefault fun t ht => ?_
        obtain rfl := Option.some.inj (hs.symm.trans ht)
        exact hcase.2

/-! ## What `Wait` promises -/

def Result.taken [DecidableEq σ] : Option (Result σ α) → σ → List α
  | some (.sample x s), t => if t = s then [x] else []
  | _, _ => []

/-- `Wait` keeps its promises: the next select has one default at most, the result is justified, and
no sample but the one returned is taken. -/
structure Sound [DecidableEq σ] (w : State σ α) : Prop where
  selects : w.result = none → w.cases.countP Case.isDefault ≤ 1
  panicked : w.result ≠ some .panicked
  errClosed : w.result = some .errClosed → ∀ s ∈ w.snapshot, (w.chans s).Drained
  ctxErr : w.result = some .ctxErr → w.done = true
  sample : ∀ x s, w.result = some (.sample x s) → s ∈ w.snapshot
  taken : ∀ t, w.arrived t = Result.taken w.result t ++ (w.chans t).queue

/-- This select, if it finds the channel of a subscriber closed, finds the first one or the last
one. -/
def Orderly (w : State σ α) : Event σ α → Prop
  | .select choice => w.result = none → ∀ i ∈ finds w choice,
      w.cases.countP Case.isDefault = 0 ∨ ∀ j ch, j ≠ i → j ≠ 0 → w.cases[j]? ≠ some (.recv ch)
  | _ => True

theorem all_struck_iff {cases : List (Case (Source σ))} {i : Nat} :
    (cases.set i .default).tail.all isDefault = true ↔
      ∀ j ch, j ≠ i → j ≠ 0 → cases[j]? ≠ some (.recv ch) := by
  rw [List.all_eq_true]
  constructor
  · intro hall j ch hji hj hcase
    obtain ⟨k, rfl⟩ := Nat.exists_eq_succ_of_ne_zero hj
    have hmem : recv ch ∈ (cases.set i .default).tail := by
      apply mem_of_getElem? (i := k)
      rw [getElem?_tail, getElem?_set_ne (Ne.symm hji), hcase]
    exact absurd (hall _ hmem) Bool.false_ne_true
  · intro hnone c hc
    obtain ⟨k, hk⟩ := mem_iff_getElem?.1 hc
    rw [getElem?_tail] at hk
    cases c with
    | default => rfl
    | recv ch =>
      by_cases hki : k + 1 = i
      · subst hki
        have hlt := (List.getElem?_eq_some_iff.1 hk).1
        rw [getElem?_set_self (by simpa using hlt)] at hk
        exact absurd hk (by simp)
      · rw [getElem?_set_ne (Ne.symm hki)] at hk
        exact absurd hk (hnone _ ch hki (by omega))

theorem drained_of_all {w : State σ α} (h : Inv w) (hall : w.cases.tail.all isDefault = true) :
    ∀ s ∈ w.snapshot, (w.chans s).Drained := by
  intro s hs
  obtain ⟨j, hj⟩ := mem_iff_getElem?.1 hs
  obtain hrecv | hdefault := h.subs j s hj
  · rw [List.all_eq_true] at hall
    rw [← getElem?_tail] at hrecv
    exact absurd (hall _ (mem_of_getElem? hrecv)) Bool.false_ne_true
  · exact hdefault.2

theorem countP_set_default {cases : List (Case (Source σ))} {i : Nat} (hc : cases[i]? = some c) :
    (cases.set i .default).countP isDefault =
      cases.countP isDefault + if c.isDefault then 0 else 1 := by
  obtain ⟨hlt, hi⟩ := List.getElem?_eq_some_iff.1 hc
  rw [countP_set hlt, hi]
  cases c with
  | recv ch => rfl
  | default =>
    have hmem : default ∈ cases := hi ▸ getElem_mem hlt
    have hpos : 0 < cases.countP isDefault := countP_pos_iff.2 ⟨_, hmem, rfl⟩
    show cases.countP isDefault - 1 + 1 = cases.countP isDefault + 0
    omega

theorem countP_le_snapshot {w : State σ α} (h : Inv w) :
    w.cases.countP isDefault ≤ w.snapshot.length := by
  have hdone := h.done
  have hlen := h.length
  cases hcases : w.cases with
  | nil => simp
  | cons c cs =>
    rw [hcases] at hdone hlen
    obtain rfl : c = .recv .done := by simpa using hdone
    have hle := countP_le_length (p := isDefault) (l := cs)
    rw [countP_cons_of_neg (by simp [isDefault])]
    simp only [length_cons] at hlen
    omega

section Steps

variable [DecidableEq σ] {w : State σ α}

theorem sound_start (subs : List σ) (chans : σ → Chan α) (done : Bool) :
    Sound (State.start subs chans done) where
  selects := fun _ => by
    rw [State.start, countP_cons, countP_map]
    simp [Function.comp_def, Case.isDefault]
  panicked := by simp [State.start]
  errClosed := by simp [State.start]
  ctxErr := by simp [State.start]
  sample := by simp [State.start]
  taken := fun _ => rfl

theorem drained_update {chans : σ → Chan α} {s t : σ} {c : Chan α} (h : (chans t).Drained)
    (hc : (chans s).Drained → c.Drained) : (Function.update chans s c t).Drained := by
  by_cases hts : t = s
  · subst hts
    rw [Function.update_self]
    exact hc h
  · rwa [Function.update_of_ne hts]

def Outside : Event σ α → Prop
  | .select _ => False
  | _ => True

theorem drained_step (w : State σ α) (he : Outside e) {t : σ} (h : (w.chans t).Drained) :
    ((step w e).chans t).Drained := by
  cases e with
  | arrive s x => exact drained_update h fun hs => drained_send hs x
  | close s => exact drained_update h drained_close
  | cancel => exact h
  | select _ => exact he.elim

theorem inv_outside (h : Inv w) (he : Outside e) : Inv (step w e) := by
  refine h.of_drained ?_ ?_ fun t ht => drained_step w he ht
  all_goals cases e <;> first | rfl | exact he.elim

theorem sound_outside (h : Sound w) (he : Outside e) : Sound (step w e) := by
  have hresult : (step w e).result = w.result := by cases e <;> first | rfl | exact he.elim
  have hcases : (step w e).cases = w.cases := by cases e <;> first | rfl | exact he.elim
  have hsnapshot : (step w e).snapshot = w.snapshot := by cases e <;> first | rfl | exact he.elim
  refine ⟨?_, ?_, ?_, ?_, ?_, ?_⟩
  · rw [hresult, hcases]
    exact h.selects
  · rw [hresult]
    exact h.panicked
  · rw [hresult, hsnapshot]
    exact fun hr s hs => drained_step w he (h.errClosed hr s hs)
  · rw [hresult]
    intro hr
    cases e with
    | cancel => rfl
    | select _ => exact he.elim
    | _ => exact h.ctxErr hr
  · rw [hresult, hsnapshot]
    exact h.sample
  · intro t
    rw [hresult]
    have htaken := h.taken t
    cases e with
    | cancel => exact htaken
    | select _ => exact he.elim
    | close s =>
      by_cases hts : t = s
      · subst hts
        simpa [step, close] using htaken
      · simpa [step, hts] using htaken
    | arrive s x =>
      by_cases hclosed : (w.chans s).closed
      · simpa [step, send, hclosed] using htaken
      · by_cases hts : t = s
        · subst hts
          simp [step, send, hclosed, htaken]
        · simpa [step, send, hclosed, hts] using htaken

open Result

theorem sound_strike_iff (h : Inv w) (hs : Sound w) (hresult : w.result = none) {i : Nat}
    (hi : i ≠ 0) (hdrained : ∀ s, w.snapshot[i - 1]? = some s → (w.chans s).Drained) :
    Sound (w.strike i) ↔ (w.cases.set i .default).tail.all isDefault = true ∨
      (w.cases.set i .default).countP isDefault ≤ 1 := by
  have hinv := h.strike hi hdrained
  have htaken : ∀ t, w.arrived t = (w.chans t).queue := by
    simpa [hresult, taken] using hs.taken
  by_cases hall : (w.cases.set i .default).tail.all isDefault = true
  · refine ⟨fun _ => .inl hall, fun _ => ?_⟩
    have hfound : (w.strike i).result = some (if w.done then .ctxErr else .errClosed) := by
      rw [State.strike, if_pos hall]
    have hclosed := drained_of_all hinv hall
    cases hdone : w.done with
    | true =>
      rw [hdone, if_pos rfl] at hfound
      refine ⟨?_, ?_, ?_, fun _ => hdone, ?_, fun t => ?_⟩
      · simp [hfound]
      · simp [hfound]
      · simp [hfound]
      · simp [hfound]
      · rw [hfound]
        exact htaken t
    | false =>
      rw [hdone, if_neg Bool.false_ne_true] at hfound
      refine ⟨?_, ?_, fun _ => hclosed, ?_, ?_, fun t => ?_⟩
      · simp [hfound]
      · simp [hfound]
      · simp [hfound]
      · simp [hfound]
      · rw [hfound]
        exact htaken t
  · have hkept : (w.strike i).result = none := by rw [State.strike, if_neg hall, hresult]
    constructor
    · intro hsound
      exact .inr (hsound.selects hkept)
    · intro hor
      refine ⟨fun _ => hor.resolve_left hall, ?_, ?_, ?_, ?_, fun t => ?_⟩
      · simp [hkept]
      · simp [hkept]
      · simp [hkept]
      · simp [hkept]
      · rw [hkept]
        exact htaken t

theorem sound_iterate_iff (h : Inv w) (hs : Sound w) (hresult : w.result = none) (choice : Nat) :
    Sound (w.iterate choice) ↔ Orderly w (.select choice) := by
  have hpass := pass_iterate h choice
  have htaken : ∀ t, w.arrived t = (w.chans t).queue := by
    simpa [hresult, taken] using hs.taken
  generalize w.iterate choice = w' at hpass
  have hquiet : finds w choice = none → Orderly w (.select choice) := by
    intro hnone _ i hi
    rw [hnone] at hi
    exact absurd hi (by simp)
  cases hpass with
  | refused htwo => exact absurd (hs.selects hresult) (by omega)
  | blocked _ hnone => exact iff_of_true hs (hquiet hnone)
  | cancelled hdone hnone =>
    refine iff_of_true ⟨?_, ?_, ?_, fun _ => hdone, ?_, htaken⟩ (hquiet hnone)
    all_goals simp
  | sampled i s x rest hi hnone hsub hqueue =>
    refine iff_of_true ⟨?_, ?_, ?_, ?_, ?_, fun t => ?_⟩ (hquiet hnone)
    · simp
    · simp
    · simp
    · simp
    · intro y t ht
      obtain ⟨-, rfl⟩ : x = y ∧ s = t := by simpa using ht
      exact mem_of_getElem? hsub
    · by_cases hts : t = s
      · subst hts
        simp [taken, htaken, hqueue]
      · simp [taken, htaken, hts]
  | idle i hi hnone _ hcase hdrained =>
    refine iff_of_true ((sound_strike_iff h hs hresult hi hdrained).2 (.inr ?_)) (hquiet hnone)
    rw [countP_set_default hcase]
    exact hs.selects hresult
  | closed i ch hi hfinds hcase hdrained =>
    have horderly : Orderly w (.select choice) ↔ w.cases.countP isDefault = 0 ∨
        ∀ j ch, j ≠ i → j ≠ 0 → w.cases[j]? ≠ some (.recv ch) := by
      simp [Orderly, hresult, hfinds]
    rw [sound_strike_iff h hs hresult hi hdrained, countP_set_default hcase, horderly,
      all_struck_iff, or_comm]
    simp [isDefault]

theorem inv_iterate (h : Inv w) (choice : Nat) : Inv (w.iterate choice) := by
  have hpass := pass_iterate h choice
  generalize w.iterate choice = w' at hpass
  cases hpass with
  | blocked _ _ => exact h
  | sampled i s x rest _ _ _ hqueue =>
    refine h.of_drained rfl rfl fun t ht => drained_update ht fun hs => ?_
    exact absurd (hqueue.symm.trans hs.2) (by simp)
  | idle i hi _ _ _ hdrained => exact h.strike hi hdrained
  | closed i _ hi _ _ hdrained => exact h.strike hi hdrained
  | _ => exact h.of_drained rfl rfl fun _ ht => ht

theorem sound_step_iff (h : Inv w) (hs : Sound w) (e : Event σ α) :
    Sound (step w e) ↔ Orderly w e := by
  by_cases he : Outside e
  · refine iff_of_true (sound_outside hs he) ?_
    cases e with
    | select _ => exact he.elim
    | _ => trivial
  · cases e with
    | select choice =>
      cases hresult : w.result with
      | none =>
        rw [step, hresult]
        exact sound_iterate_iff h hs hresult choice
      | some r =>
        rw [step, hresult]
        exact iff_of_true hs fun hnone => absurd (hresult.symm.trans hnone) (by simp)
    | _ => exact absurd trivial he

theorem inv_step (h : Inv w) (e : Event σ α) : Inv (step w e) := by
  by_cases he : Outside e
  · exact inv_outside h he
  · cases e with
    | select choice =>
      rw [step]
      cases w.result with
      | none => exact inv_iterate h choice
      | some r => exact h
    | _ => exact absurd trivial he

end Steps

/-! ## Whole calls -/

def remaining (w : State σ α) : Nat :=
  match w.result with
  | none => w.snapshot.length - w.cases.countP Case.isDefault + 1
  | some _ => 0

theorem remaining_returned {w : State σ α} {r : Result σ α} (h : w.result = some r) :
    remaining w = 0 := by
  rw [remaining, h]

theorem remaining_strike {w : State σ α} (h : Inv w) (hresult : w.result = none) {i : Nat}
    (hi : i ≠ 0) (hdrained : ∀ s, w.snapshot[i - 1]? = some s → (w.chans s).Drained)
    (hcase : w.cases[i]? = some c) :
    remaining (w.strike i) + (if c.isDefault then 0 else 1) ≤ remaining w := by
  have hhere : remaining w = w.snapshot.length - w.cases.countP isDefault + 1 := by
    rw [remaining, hresult]
  have hcount := countP_set_default hcase
  have hle : (w.cases.set i .default).countP isDefault ≤ w.snapshot.length :=
    countP_le_snapshot (h.strike hi hdrained)
  by_cases hall : (w.cases.set i .default).tail.all Case.isDefault = true
  · have hnext : remaining (w.strike i) = 0 := by simp [remaining, State.strike, hall]
    split_ifs at hcount ⊢ <;> omega
  · have hnext : remaining (w.strike i) =
        w.snapshot.length - (w.cases.set i .default).countP Case.isDefault + 1 := by
      simp only [remaining, State.strike, hall, hresult, Bool.false_eq_true, if_false]
    split_ifs at hcount ⊢ <;> omega

section Runs

variable [DecidableEq σ]

def turn (w : State σ α) (e : Event σ α) : State σ α × List Nat :=
  (step w e,
    match e with
    | .select choice =>
      if w.result.isNone && !(readyCases w.ready w.cases).isEmpty then [choice] else []
    | _ => [])

theorem remaining_iterate {w : State σ α} (h : Inv w) (hresult : w.result = none)
    (choice : Nat) : remaining (w.iterate choice) +
      (if (readyCases w.ready w.cases).isEmpty then 0 else 1) ≤ remaining w := by
  have hhere : remaining w = w.snapshot.length - w.cases.countP isDefault + 1 := by
    rw [remaining, hresult]
  have hone : (if (readyCases w.ready w.cases).isEmpty then 0 else 1) ≤ 1 := by
    split_ifs <;> omega
  have hpass := pass_iterate h choice
  generalize w.iterate choice = w' at hpass
  cases hpass with
  | blocked hnone _ => simp [hnone]
  | idle i hi _ hnone hcase hdrained =>
    have hle := remaining_strike h hresult hi hdrained hcase
    simpa [hnone, isDefault] using hle
  | closed i ch hi _ hcase hdrained =>
    have hle := remaining_strike h hresult hi hdrained hcase
    simp only [isDefault, Bool.false_eq_true, if_false] at hle
    omega
  | _ =>
    rw [remaining_returned rfl]
    omega

theorem remaining_turn {w : State σ α} (h : Inv w) (e : Event σ α) :
    (turn w e).2.length + remaining (turn w e).1 ≤ remaining w := by
  cases e with
  | select choice =>
    cases hresult : w.result with
    | some r => simp [turn, step, hresult]
    | none =>
      have hle := remaining_iterate h hresult choice
      simp only [turn, step, hresult, Option.isNone_none, Bool.true_and]
      by_cases hready : (readyCases w.ready w.cases).isEmpty
      · simpa [hready] using hle
      · simp only [hready, Bool.not_false, if_true, length_singleton, Bool.false_eq_true,
          if_false] at hle ⊢
        omega
  | _ => simp [turn, step, remaining]

/-- **The loop comes to an end**: with `n` subscribers, `n + 1` selects can find a channel ready. -/
theorem productive_selects (subs : List σ) (chans : σ → Chan α) (done : Bool)
    (events : List (Event σ α)) :
    let run := Run.run turn (State.start subs chans done) events
    run.2.length + remaining run.1 ≤ subs.length + 1 := by
  have hstart : remaining (State.start subs chans done) ≤ subs.length + 1 := by
    show subs.length - _ + 1 ≤ subs.length + 1
    omega
  -- the invariant: what has been found and what remains never exceed what remained at the start
  have hrun : Inv (run turn (start subs chans done) events).1 ∧
      (run turn (start subs chans done) events).2.length +
        remaining (run turn (start subs chans done) events).1 ≤
          remaining (start subs chans done) := by
    refine run_induction_always
      (J := fun w (_ : List (Event σ α)) found => Inv w ∧
        found.length + remaining w ≤ remaining (start subs chans done))
      (fun w e _ found hw => ⟨inv_step hw.1 e, ?_⟩) ⟨Inv.start subs chans done, by simp⟩ events
    have hle := remaining_turn hw.1 e
    have hfound := hw.2
    rw [length_append]
    omega
  exact Nat.le_trans hrun.2 hstart

/-- `Wait` never selects with two defaults, reports closed channels only if all are closed and
drained, and otherwise returns a sample with its subscriber or the error of the context, exactly if
no channel is found closed while another one has been struck out and a third one has not. -/
theorem wait_sound_iff (subs : List σ) (chans : σ → Chan α) (done : Bool)
    (events : List (Event σ α)) : (∀ past rest, events = past ++ rest →
        Sound (Run.run turn (State.start subs chans done) past).1) ↔
      Run.Along (fun _ w e => Orderly w e) turn [] (State.start subs chans done) events := by
  have hinv : ∀ past, Inv (Run.run turn (State.start subs chans done) past).1 :=
    fun past => Run.run_invariant (I := Inv) (fun w e h => inv_step h e) (Inv.start _ _ _) past
  have hiff : (∀ past rest, events = past ++ rest →
      Inv (run turn (start subs chans done) past).1 ∧
        Sound (run turn (start subs chans done) past).1) ↔
      Run.Along (fun _ w e => Orderly w e) turn [] (start subs chans done) events := by
    refine forall_states_iff_along (I := fun w => Inv w ∧ Sound w) (D := fun _ _ _ => True)
      (fun _ w e h _ => ?_) ⟨Inv.start _ _ _, sound_start _ _ _⟩
      (along_of_forall (fun _ _ _ => trivial) _ _ _)
    rw [← sound_step_iff h.1 h.2 e]
    exact ⟨fun hnext => hnext.2, fun hsound => ⟨inv_step h.1 e, hsound⟩⟩
  rw [← hiff]
  refine forall_congr' fun past => forall_congr' fun rest => imp_congr_right fun _ => ?_
  exact ⟨fun hsound => ⟨hinv past, hsound⟩, fun h => h.2⟩

/-- Three subscribers: the first two are closed and struck out, the third has a sample. The next
select panics. -/
theorem third_subscriber_unheard :
    let idle : Nat → Chan Nat := fun _ => ⟨[], false⟩
    let events : List (Event Nat Nat) :=
      [.close 0, .select 0, .close 1, .select 0, .arrive 2 7, .select 0]
    (Run.run turn (State.start [0, 1, 2] idle false) events).1.result = some .panicked := by decide

end Runs

end GoDDS.WaitSet
