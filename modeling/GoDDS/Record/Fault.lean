import GoDDS.Lib.Bytes
import GoDDS.Lib.Parties
import GoDDS.Lib.Run
import Mathlib.Data.List.Perm.Basic

/-!
# The fault injector

With a reorder window, the write that completes it emits all of it; what a write puts there after
`Close` is lost, and so is a window that is being emitted then.
-/

namespace GoDDS.Record

open ByteCodec List Function Parties

structure FaultOptions where
  lossRate : ℚ
  corruptRate : ℚ
  duplicateRate : ℚ
  reorderWindow : Int

def draw (rate u : ℚ) : Bool := 0 < rate && u < rate

inductive Phase where
  | waiting
  | emitting
  | returned (ok : Bool)
  deriving DecidableEq

structure Call where
  data : Bytes
  dup : Bool
  phase : Phase
  deriving DecidableEq

/-- Payloads are the numbers of their calls. `hand` are those about to be emitted, by a call or by
`Close` (`none`). -/
structure FaultPublisher where
  closed : Bool
  pubClosed : Bool
  window : List Nat
  hand : List (Option Nat × Nat)
  calls : List Call
  forwarded : List Nat
  deriving DecidableEq

/-- A call starts, with its random numbers, or goes on, unless its context is cancelled; `Close`
starts or goes on. The window is shuffled to `order`. -/
inductive Act where
  | start (payload : Bytes) (loss dup corrupt : ℚ) (corruptIdx : Nat)
  | resume (i : Nat) (cancelled : Bool) (order : List Nat)
  | close (order : List Nat)
  | closing

def shuffle (order window : List Nat) : List Nat := if order.isPerm window then order else window

def times (dup : Bool) : Nat := if dup then 2 else 1

namespace FaultPublisher

def new : FaultPublisher := ⟨false, false, [], [], [], []⟩

variable (opts : FaultOptions)

def begin (payload : Bytes) (loss dup corrupt : ℚ) (corruptIdx : Nat) : Call where
  data :=
    if payload ≠ [] ∧ draw opts.corruptRate corrupt then
      payload.modify (corruptIdx % payload.length) (· ^^^ 0xFF)
    else payload
  dup := draw opts.duplicateRate dup
  phase := if draw opts.lossRate loss then .returned true else .waiting

def emit (f : FaultPublisher) (x : Option Nat × Nat) : FaultPublisher :=
  { f with hand := f.hand.erase x, forwarded := f.forwarded ++ [x.2] }

def step (f : FaultPublisher) : Act → FaultPublisher × List Empty
  | .start payload loss dup corrupt corruptIdx =>
    if f.closed then (f, [])
    else ({ f with calls := f.calls ++ [begin opts payload loss dup corrupt corruptIdx] }, [])
  | .resume i cancelled order =>
    match f.calls[i]? with
    | some ⟨data, dup, .waiting⟩ =>
      let become phase := f.calls.set i ⟨data, dup, phase⟩
      if cancelled then ({ f with calls := become (.returned false) }, [])
      else if 1 < opts.reorderWindow then
        if ((f.window ++ [i]).length : Int) < opts.reorderWindow then
          ({ f with window := f.window ++ [i], calls := become (.returned true) }, [])
        else
          ({ f with
              window := []
              hand := f.hand ++ (shuffle order (f.window ++ [i])).map (some i, ·)
              calls := become .emitting }, [])
      else
        ({ f with
            hand := f.hand ++ List.replicate (times dup) (some i, i)
            calls := become .emitting }, [])
    | some ⟨data, dup, .emitting⟩ =>
      match f.hand.find? (·.1 = some i) with
      | none => ({ f with calls := f.calls.set i ⟨data, dup, .returned true⟩ }, [])
      | some x =>
        if f.pubClosed then
          ({ f with
              hand := f.hand.filter (·.1 ≠ some i)
              calls := f.calls.set i ⟨data, dup, .returned false⟩ }, [])
        else (f.emit x, [])
    | _ => (f, [])
  | .close order =>
    if f.closed then (f, [])
    else
      ({ f with
          closed := true
          window := []
          hand := f.hand ++ (shuffle order f.window).map (none, ·) }, [])
  | .closing =>
    if f.closed ∧ ¬ f.pubClosed then
      match f.hand.find? (·.1 = none) with
      | none => ({ f with pubClosed := true }, [])
      | some x => (f.emit x, [])
    else (f, [])

/-- With a reorder window, nothing is to be duplicated, and `Close` waits for the writes. -/
def Calm (f : FaultPublisher) : Act → Prop
  | .start _ _ dup _ _ => 1 < opts.reorderWindow → draw opts.duplicateRate dup = false
  | .close _ => 1 < opts.reorderWindow → ∀ c ∈ f.calls, ∃ ok, c.phase = .returned ok
  | _ => True

instance (f : FaultPublisher) (a : Act) : Decidable (f.Calm opts a) := by
  unfold Calm
  split <;> infer_instance

/-- How often a payload is in the window, in somebody's hand or forwarded. -/
def copies (f : FaultPublisher) (i : Nat) : Nat :=
  f.window.count i + (f.hand.map Prod.snd).count i + f.forwarded.count i

def Accounted (n : Nat) : Option Call → Prop
  | none | some ⟨_, _, .waiting⟩ => n = 0
  | some ⟨_, _, .returned false⟩ => True
  | some c => n = times c.dup

structure Inv (f : FaultPublisher) : Prop where
  accounted : ∀ i, Accounted (f.copies i) f.calls[i]?
  byCall : ∀ j i, (some j, i) ∈ f.hand → (∃ c, f.calls[j]? = some c ∧ c.phase = .emitting) ∧
    (1 < opts.reorderWindow ∨ i = j)
  byClose : ∀ i, (none, i) ∈ f.hand → f.closed ∧ ¬ f.pubClosed
  window : f.window = [] ∨ ¬ f.closed ∧ 1 < opts.reorderWindow
  calm : 1 < opts.reorderWindow → (∀ c ∈ f.calls, c.dup = false) ∧
    (f.closed → ∀ c ∈ f.calls, ∃ ok, c.phase = .returned ok)
  shut : f.pubClosed → f.closed

variable {opts} {f : FaultPublisher}

theorem count_shuffle (order window : List Nat) (i : Nat) :
    (shuffle order window).count i = window.count i := by
  unfold shuffle
  split_ifs with h
  · exact (isPerm_iff.1 h).count_eq i
  · rfl

@[simp] theorem copies_emit {x : Option Nat × Nat} (hx : x ∈ f.hand) (i : Nat) :
    (f.emit x).copies i = f.copies i := by
  have h := ((perm_cons_erase hx).map Prod.snd).count_eq i
  simp only [map_cons, count_cons] at h
  simp only [copies, emit, count_append, count_singleton]
  omega

theorem Inv.emit (h : Inv opts f) {x : Option Nat × Nat} (hx : x ∈ f.hand) :
    Inv opts (f.emit x) where
  accounted i := copies_emit hx i ▸ h.accounted i
  byCall j i hm := h.byCall j i (mem_of_mem_erase hm)
  byClose i hm := h.byClose i (mem_of_mem_erase hm)
  window := h.window
  calm := h.calm
  shut := h.shut

theorem Inv.goOn (h : Inv opts f) {i : Nat} {c : Call} (hi : f.calls[i]? = some c)
    (phase : Phase) (hphase : ∀ ok, c.phase ≠ .returned ok) {window : List Nat}
    {hand : List (Option Nat × Nat)}
    (hcopies : ∀ j ≠ i, copies { f with window, hand } j = f.copies j)
    (hown : Accounted (copies { f with window, hand } i) (some { c with phase }))
    (hhand : ∀ x ∈ hand, x ∈ f.hand ∧ x.1 ≠ some i ∨
      x.1 = some i ∧ phase = .emitting ∧ (1 < opts.reorderWindow ∨ x.2 = i))
    (hwindow : window = [] ∨ window = f.window ∨ 1 < opts.reorderWindow) :
    Inv opts { f with window, hand, calls := f.calls.set i { c with phase } } := by
  have hopen : 1 < opts.reorderWindow → ¬ f.closed := fun hw hc =>
    ((h.calm hw).2 hc c (mem_of_getElem? hi)).elim hphase
  constructor
  · intro j
    by_cases hj : j = i
    · rw [hj, (set_iff hi).2 (.inl ⟨rfl, rfl⟩)]
      exact hown
    · rw [getElem?_set_ne (Ne.symm hj)]
      exact (hcopies j hj).symm ▸ h.accounted j
  · intro j k hm
    rcases hhand _ hm with ⟨hm, hne⟩ | ⟨hj, hemit, hk⟩
    · obtain ⟨⟨d, hd, hemit⟩, hk⟩ := h.byCall j k hm
      exact ⟨⟨d, (set_iff hi).2 (.inr ⟨fun hj => hne (hj ▸ rfl), hd⟩), hemit⟩, hk⟩
    · obtain rfl := Option.some.inj hj
      exact ⟨⟨_, (set_iff hi).2 (.inl ⟨rfl, rfl⟩), hemit⟩, hk⟩
  · intro k hm
    rcases hhand _ hm with ⟨hm, -⟩ | ⟨hj, -⟩
    exacts [h.byClose k hm, nomatch hj]
  · rcases hwindow with rfl | rfl | hw
    exacts [.inl rfl, h.window, .inr ⟨hopen hw, hw⟩]
  · refine fun hw => ⟨fun d hd => ?_, fun hc => absurd hc (hopen hw)⟩
    rcases mem_or_eq_of_mem_set hd with hd | rfl
    exacts [(h.calm hw).1 d hd, (h.calm hw).1 c (mem_of_getElem? hi)]
  · exact h.shut

theorem inv_resume (h : Inv opts f) (i : Nat) (cancelled : Bool) (order : List Nat) :
    Inv opts (f.step opts (.resume i cancelled order)).1 := by
  rw [step]
  split
  next data dup hi =>
    have hzero : f.copies i = 0 := by simpa only [hi, Accounted] using h.accounted i
    have hother {x} (hx : x ∈ f.hand) : x ∈ f.hand ∧ x.1 ≠ some i := by
      refine ⟨hx, fun hxi => ?_⟩
      obtain ⟨⟨d, hd, hemit⟩, -⟩ := h.byCall i x.2 (hxi ▸ hx)
      obtain rfl := Option.some.inj (hi.symm.trans hd)
      exact nomatch hemit
    have hdup : 1 < opts.reorderWindow → dup = false := fun hw =>
      (h.calm hw).1 _ (mem_of_getElem? hi)
    split_ifs with hc hw hlen
    · exact h.goOn hi (.returned false) nofun (fun _ _ => rfl) trivial (fun _ hx => .inl (hother hx))
        (.inr (.inl rfl))
    · refine h.goOn hi (.returned true) nofun (fun j hj => ?_) ?_ (fun _ hx => .inl (hother hx))
        (.inr (.inr hw))
      · simp [copies, Ne.symm hj]
      · simp only [copies] at hzero
        simp only [Accounted, times, hdup hw, copies, count_append, count_singleton_self]
        simp
        omega
    · refine h.goOn hi .emitting nofun (fun j hj => ?_) ?_ (fun x hx => ?_) (.inl rfl)
      · simp [copies, comp_def, count_shuffle, Ne.symm hj]
        omega
      · simp only [copies] at hzero
        simp [Accounted, times, hdup hw, copies, comp_def, count_shuffle]
        omega
      · rcases mem_append.1 hx with hx | hx
        · exact .inl (hother hx)
        · obtain ⟨k, -, rfl⟩ := List.mem_map.1 hx
          exact .inr ⟨rfl, rfl, .inl hw⟩
    · refine h.goOn hi .emitting nofun (fun j hj => ?_) ?_ (fun x hx => ?_) (.inr (.inl rfl))
      · simp [copies, count_replicate, Ne.symm hj]
      · simp only [copies] at hzero
        simp [Accounted, copies]
        omega
      · rcases mem_append.1 hx with hx | hx
        · exact .inl (hother hx)
        · obtain rfl := eq_of_mem_replicate hx
          exact .inr ⟨rfl, rfl, .inr rfl⟩
  next data dup hi =>
    split
    next hnone =>
      have hown := hi ▸ h.accounted i
      refine h.goOn hi (.returned true) nofun (fun _ _ => rfl) hown (fun x hx => .inl ⟨hx, ?_⟩)
        (.inr (.inl rfl))
      simpa using find?_eq_none.1 hnone x hx
    next x hx =>
    split_ifs with hpub
    · -- only without a window can a call still be emitting when the publisher is closed
      have hnarrow : ¬ 1 < opts.reorderWindow := fun hw =>
        nomatch (h.calm hw).2 (h.shut hpub) _ (mem_of_getElem? hi)
      refine h.goOn hi (.returned false) nofun (fun j hj => ?_) trivial (fun x hx => ?_)
        (.inr (.inl rfl))
      · have hcount : ((f.hand.filter (·.1 ≠ some i)).map Prod.snd).count j =
            (f.hand.map Prod.snd).count j := by
          simp only [List.count, countP_map, countP_filter]
          refine countP_congr fun y hy => ?_
          obtain ⟨e, k⟩ := y
          cases e with
          | none => simp
          | some e =>
            have hk := (h.byCall e k hy).2.resolve_left hnarrow
            simp only [comp_apply, Bool.and_eq_true, decide_eq_true_eq, beq_iff_eq]
            refine and_iff_left_of_imp fun hkj he => hj ?_
            rw [← hkj, hk, Option.some.inj he]
        simp only [copies, hcount]
      · obtain ⟨hx, hne⟩ := mem_filter.1 hx
        exact .inl ⟨hx, by simpa using hne⟩
    · exact h.emit (mem_of_find?_eq_some hx)
  · exact h

theorem inv_step (hloss : opts.lossRate = 0) (h : Inv opts f) {a : Act} (ha : f.Calm opts a) :
    Inv opts (f.step opts a).1 := by
  cases a with
  | resume i cancelled order => exact inv_resume h i cancelled order
  | start payload loss dup corrupt corruptIdx =>
    rw [step]
    split_ifs with hc
    · exact h
    obtain ⟨data, hbegin⟩ : ∃ data, begin opts payload loss dup corrupt corruptIdx =
        ⟨data, draw opts.duplicateRate dup, .waiting⟩ := ⟨_, by simp [begin, draw, hloss]; rfl⟩
    rw [hbegin]
    constructor
    · intro i
      have hold := h.accounted i
      by_cases hi : i = f.calls.length
      · rw [hi, getElem?_eq_none le_rfl] at hold
        rw [hi, getElem?_concat_length]
        exact hold
      · rwa [show (f.calls ++ [_])[i]? = f.calls[i]? by grind]
    · intro j i hm
      obtain ⟨⟨c, hj, hemit⟩, hk⟩ := h.byCall j i hm
      exact ⟨⟨c, concat_iff.2 (.inl hj), hemit⟩, hk⟩
    · exact h.byClose
    · exact h.window
    · refine fun hw => ⟨fun c hm => ?_, fun hc' => absurd hc' hc⟩
      rcases mem_append.1 hm with hm | hm
      · exact (h.calm hw).1 c hm
      · obtain rfl := mem_singleton.1 hm
        exact ha hw
    · exact h.shut
  | close order =>
    rw [step]
    split_ifs with hc
    · exact h
    have hcopies (i : Nat) : copies ⟨true, f.pubClosed, [],
        f.hand ++ (shuffle order f.window).map (none, ·), f.calls, f.forwarded⟩ i = f.copies i := by
      simp [copies, comp_def, count_shuffle]
      omega
    refine ⟨fun i => hcopies i ▸ h.accounted i, fun j i hm => h.byCall j i ?_,
      fun i hm => ⟨rfl, fun hpub => hc (h.shut hpub)⟩, .inl rfl,
      fun hw => ⟨(h.calm hw).1, fun _ => ha hw⟩, fun _ => rfl⟩
    simpa using hm
  | closing =>
    rw [step]
    split_ifs with hc
    · split
      next hnone =>
        refine ⟨h.accounted, h.byCall, fun i hm => ?_, h.window, h.calm, fun _ => hc.1⟩
        simpa using find?_eq_none.1 hnone _ hm
      next x hx => exact h.emit (mem_of_find?_eq_some hx)
    · exact h

/-- In every run without a reorder window, and in every run in which no duplication is drawn and
`Close` begins when no write is under way, each payload whose write returned nil has been forwarded
as often as it should once all writes and `Close` have returned. -/
theorem forwarded_of_returned (hloss : opts.lossRate = 0) {acts : List Act}
    (h : Run.Along (fun _ f a => f.Calm opts a) (step opts) [] new acts)
    (hret : ∀ c ∈ (Run.run (step opts) new acts).1.calls, ∃ ok, c.phase = .returned ok)
    (hclosed : (Run.run (step opts) new acts).1.pubClosed) {i : Nat} {c : Call}
    (hi : (Run.run (step opts) new acts).1.calls[i]? = some c) (hok : c.phase = .returned true) :
    (Run.run (step opts) new acts).1.forwarded.count i = times c.dup := by
  have hinv : Inv opts (Run.run (step opts) new acts).1 :=
    Run.run_induction (J := fun f _ _ => Inv opts f) (fun _ _ _ _ ha hf => inv_step hloss hf ha)
      ⟨fun _ => rfl, nofun, nofun, .inl rfl, fun _ => ⟨nofun, nofun⟩, nofun⟩ h
  generalize (Run.run (step opts) new acts).1 = f at *
  have hwindow : f.window = [] := hinv.window.resolve_right fun hw => hw.1 (hinv.shut hclosed)
  have hhand : f.hand = [] := by
    refine eq_nil_iff_forall_not_mem.2 fun ⟨e, k⟩ hm => ?_
    cases e with
    | none => exact (hinv.byClose k hm).2 hclosed
    | some j =>
      obtain ⟨⟨d, hd, hemit⟩, -⟩ := hinv.byCall j k hm
      obtain ⟨ok, hd'⟩ := hret d (mem_of_getElem? hd)
      exact nomatch hemit.symm.trans hd'
  have hacc := hinv.accounted i
  obtain ⟨data, dup, phase⟩ := c
  obtain rfl : phase = .returned true := hok
  simpa [hi, Accounted, copies, hwindow, hhand] using hacc

def windowOf (n : Int) (duplicateRate : ℚ) : FaultOptions := ⟨0, 0, duplicateRate, n⟩

theorem forwarded_of_window :
    let acts : List Act := [.start [7] 0 0 0 0, .start [8] 0 0 0 0, .resume 0 false [],
      .resume 1 false [1, 0], .resume 1 false [], .resume 1 false [], .resume 1 false [], .close [],
      .closing]
    (Run.run (step (windowOf 2 0)) new acts).1.forwarded.count 0 = 1 := by
  intro acts
  exact forwarded_of_returned (show (windowOf 2 0).lossRate = 0 from rfl)
    (show Run.Along _ _ _ _ acts by decide +kernel) (by decide +kernel) (by decide +kernel)
    (c := ⟨[7], false, .returned true⟩) (by decide +kernel) rfl

/-- A write that was delayed until after `Close`, one whose window is cut short by `Close`, and one
that was to be duplicated. -/
theorem window_loses :
    let run n rate acts := (Run.run (step (windowOf n rate)) new acts).1
    let start : Act := .start [7] 0 0 0 0
    run 2 0 [start, .close [], .closing, .resume 0 false []] =
        ⟨true, true, [0], [], [⟨[7], false, .returned true⟩], []⟩ ∧
      run 2 0 [start, start, .resume 0 false [], .resume 1 false [1, 0], .close [], .closing,
        .resume 1 false []] = ⟨true, true, [], [],
          [⟨[7], false, .returned true⟩, ⟨[7], false, .returned false⟩], []⟩ ∧
      run 2 1 [start, .resume 0 false [], .close [], .closing, .closing] =
        ⟨true, true, [], [], [⟨[7], true, .returned true⟩], [0]⟩ := by decide +kernel

end FaultPublisher

end GoDDS.Record
