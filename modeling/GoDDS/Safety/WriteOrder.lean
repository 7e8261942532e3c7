import GoDDS.Safety.SequenceGap

/-!
# Concurrent writes of one publisher
-/

namespace GoDDS.Safety

open ByteCodec Go List Table Nat Run Event

/-- A `Write` between its two steps. `number` is its counter without wrapping; the source does not
keep it. -/
structure Ticket where
  number : Nat
  counter : UInt32
  payload : Bytes

structure Writers where
  publisher : E2EPublisher
  taken : Nat
  holding : Table Nat Ticket

inductive Act where
  | take (g : Nat) (payload : Bytes)
  | handOver (g : Nat) (now : Int)

structure Handed where
  number : Nat
  frame : Bytes

namespace Writers

def new (cfg : E2EConfig) : Writers :=
  { publisher := .new cfg, taken := 0, holding := Table.empty }

/-- `E2EPublisher.Write` takes its counter under the mutex. -/
def take (w : Writers) (g : Nat) (payload : Bytes) : Writers :=
  match w.holding g with
  | some _ => w
  | none =>
    { publisher := w.publisher.take.1
      taken := w.taken + 1
      holding := w.holding.set g ⟨w.taken + 1, w.publisher.take.2, payload⟩ }

/-- The frame is handed to the wrapped publisher after the mutex has been released. -/
def handOver (w : Writers) (g : Nat) (now : Int) : Writers × List Handed :=
  match w.holding g with
  | none => (w, [])
  | some t =>
    ({ w with holding := w.holding.erase g },
      [⟨t.number, makeFrame w.publisher.cfg t.counter now t.payload⟩])

def step (w : Writers) : Act → Writers × List Handed
  | .take g payload => (w.take g payload, [])
  | .handOver g now => w.handOver g now

def Idle (w : Writers) : Prop := ∀ g, w.holding g = none

/-- A goroutine that hands over its frame holds the oldest counter. -/
def InTurn (w : Writers) : Act → Prop
  | .take _ _ => True
  | .handOver g _ => ∀ t, w.holding g = some t →
      ∀ g' t', w.holding g' = some t' → t.number ≤ t'.number

/-! ## Frames in turn -/

/-- The frames handed over are the first ones, and goroutines hold the counters after them. -/
structure InStep (w : Writers) (os : List Handed) : Prop where
  counter : w.publisher.counter = UInt32.ofNat w.taken
  length_le : os.length ≤ w.taken
  handed : ∀ i o, os[i]? = some o → o.number = i + 1 ∧
    ∃ cfg now payload, o.frame = makeFrame cfg (UInt32.ofNat (i + 1)) now payload
  held : ∀ g t, w.holding g = some t →
    t.counter = UInt32.ofNat t.number ∧ os.length < t.number ∧ t.number ≤ w.taken
  all : ∀ n, os.length < n → n ≤ w.taken → ∃ g t, w.holding g = some t ∧ t.number = n
  distinct : ∀ g g' t t', w.holding g = some t → w.holding g' = some t' → t.number = t'.number →
    g = g'

variable {w : Writers} {os : List Handed}

theorem inStep_new (cfg : E2EConfig) : InStep (new cfg) [] := by
  refine ⟨rfl, le_refl _, by simp, by simp [new], ?_, by simp [new]⟩
  intro n h0 hn
  exact absurd h0 (not_lt.2 hn)

theorem InStep.take (h : InStep w os) (g : Nat) (payload : Bytes) :
    InStep (w.take g payload) os := by
  unfold Writers.take
  cases hg : w.holding g with
  | some t => exact h
  | none =>
    have hle := h.length_le
    have hcounter : w.publisher.counter + 1 = UInt32.ofNat (w.taken + 1) := by
      rw [h.counter, UInt32.ofNat_add]
      rfl
    -- the counter taken is larger than all that are held
    have hnew (g' : Nat) (t : Ticket) (ht : w.holding g' = some t) : t.number < w.taken + 1 := by
      have := (h.held g' t ht).2.2
      omega
    refine ⟨hcounter, le_succ_of_le hle, h.handed, ?_, ?_, ?_⟩
    · refine forall_set ⟨hcounter, lt_succ_of_le hle, le_refl _⟩ fun g' t ht => ?_
      obtain ⟨hc, hlt, hn⟩ := h.held g' t ht
      exact ⟨hc, hlt, le_succ_of_le hn⟩
    · intro n hlt hn
      rcases lt_or_eq_of_le hn with hn | rfl
      · obtain ⟨g', t, ht, hnum⟩ := h.all n hlt (le_of_lt_succ hn)
        have hne : g' ≠ g := fun heq => by simp [heq, hg] at ht
        exact ⟨g', t, set_eq_some.2 (.inr ⟨hne, ht⟩), hnum⟩
      · exact ⟨g, _, set_self _ _ _, rfl⟩
    · intro g₁ g₂ t₁ t₂ h₁ h₂ hnum
      rcases set_eq_some.1 h₁ with ⟨hg₁, rfl⟩ | ⟨-, hold₁⟩ <;>
        rcases set_eq_some.1 h₂ with ⟨hg₂, rfl⟩ | ⟨-, hold₂⟩
      · rw [hg₁, hg₂]
      · exact absurd hnum.symm (Nat.ne_of_lt (hnew g₂ t₂ hold₂))
      · exact absurd hnum (Nat.ne_of_lt (hnew g₁ t₁ hold₁))
      · exact h.distinct g₁ g₂ t₁ t₂ hold₁ hold₂ hnum

theorem InStep.number_eq (h : InStep w os) {g : Nat} {t : Ticket} (ht : w.holding g = some t)
    (hturn : ∀ g' t', w.holding g' = some t' → t.number ≤ t'.number) :
    t.number = os.length + 1 := by
  obtain ⟨-, hlt, hle⟩ := h.held g t ht
  obtain ⟨g', t', ht', hnum⟩ := h.all (os.length + 1) (lt_succ_self _) (by omega)
  have := hturn g' t' ht'
  omega

theorem InStep.handOver (h : InStep w os) {g : Nat} (now : Int) (hturn : w.InTurn (.handOver g now)) :
    InStep (w.handOver g now).1 (os ++ (w.handOver g now).2) := by
  unfold Writers.handOver
  cases hg : w.holding g with
  | none => simpa using h
  | some t =>
    have hnum := h.number_eq hg (hturn t hg)
    obtain ⟨hcounter, -, hle⟩ := h.held g t hg
    refine ⟨h.counter, by simp; omega, ?_, ?_, ?_, ?_⟩
    · intro i o ho
      rw [getElem?_append] at ho
      split_ifs at ho with hi
      · exact h.handed i o ho
      · obtain ⟨hi0, rfl⟩ : i = os.length ∧ o = ⟨t.number, _⟩ := by
          rw [getElem?_singleton] at ho
          split_ifs at ho with h0
          exact ⟨by omega, (Option.some.inj ho).symm⟩
        rw [hi0, ← hnum]
        exact ⟨rfl, _, now, t.payload, by rw [hcounter]⟩
    · intro g' t' ht'
      obtain ⟨hne, ht'⟩ := erase_eq_some.1 ht'
      obtain ⟨hc, hlt, hn⟩ := h.held g' t' ht'
      have hdiff : t'.number ≠ t.number := fun heq => hne (h.distinct g' g t' t ht' hg heq)
      refine ⟨hc, ?_, hn⟩
      simp only [length_append, length_singleton]
      omega
    · intro n hlt hn
      simp only [length_append, length_singleton] at hlt
      obtain ⟨g', t', ht', hn'⟩ := h.all n (by omega) hn
      have hne : g' ≠ g := fun heq => by
        rw [heq, hg] at ht'
        rw [Option.some.inj ht'] at hnum
        omega
      exact ⟨g', t', erase_eq_some.2 ⟨hne, ht'⟩, hn'⟩
    · intro g₁ g₂ t₁ t₂ h₁ h₂ heq
      exact h.distinct g₁ g₂ t₁ t₂ (erase_eq_some.1 h₁).2 (erase_eq_some.1 h₂).2 heq

theorem inStep_step (h : InStep w os) {a : Act} (hturn : w.InTurn a) :
    InStep (w.step a).1 (os ++ (w.step a).2) := by
  cases a with
  | take g payload =>
    rw [step, append_nil]
    exact h.take g payload
  | handOver g now => exact h.handOver now hturn

theorem inStep_run (cfg : E2EConfig) {acts : List Act}
    (hturn : Run.Along (fun _ w a => w.InTurn a) step [] (new cfg) acts) :
    InStep (run step (new cfg) acts).1 (run step (new cfg) acts).2 :=
  run_induction (J := fun w _ os => InStep w os) (fun _ _ _ _ ht h => inStep_step h ht)
    (inStep_new cfg) hturn

theorem handed_later {g : Nat} {t : Ticket} (hg : w.holding g = some t) (acts : List Act) :
    (run step w acts).1.holding g = some t ∨ ∃ o ∈ (run step w acts).2, o.number = t.number := by
  induction acts generalizing w with
  | nil => exact .inl hg
  | cons a acts ih =>
    rw [run_cons]
    -- either the step is the one of `g` that hands the frame over, or `g` still holds the counter
    have hstep : (w.step a).1.holding g = some t ∨ ∃ o ∈ (w.step a).2, o.number = t.number := by
      cases a with
      | take g' payload =>
        refine .inl ?_
        rw [step, take]
        cases hg' : w.holding g' with
        | some _ => exact hg
        | none =>
          have hne : g ≠ g' := fun heq => by simp [← heq, hg] at hg'
          exact (set_ne _ _ hne).trans hg
      | handOver g' now =>
        rw [step, handOver]
        by_cases hne : g = g'
        · rw [← hne, hg]
          exact .inr ⟨_, mem_singleton_self _, rfl⟩
        · cases hg' : w.holding g' with
          | none => exact .inl hg
          | some _ => exact .inl ((erase_ne _ hne).trans hg)
    rcases hstep with hstill | ⟨o, ho, hnum⟩
    · rcases ih hstill with hend | ⟨o, ho, hnum⟩
      · exact .inl hend
      · exact .inr ⟨o, mem_append_right _ ho, hnum⟩
    · exact .inr ⟨o, mem_append_left _ ho, hnum⟩

def Ordered (os : List Handed) : Prop := (os.map Handed.number).Pairwise (· < ·)

theorem inTurn_of_ordered (past : List Act) {acts : List Act}
    (hidle : (run step w acts).1.Idle) (horder : Ordered (run step w acts).2) :
    Run.Along (fun _ w a => w.InTurn a) step past w acts := by
  induction acts generalizing w past with
  | nil => trivial
  | cons a acts ih =>
    rw [run_cons] at hidle horder
    have hrest : Ordered (run step (w.step a).1 acts).2 := by
      rw [Ordered, map_append] at horder
      exact (pairwise_append.1 horder).2.1
    refine ⟨?_, ih _ hidle hrest⟩
    cases a with
    | take g payload => trivial
    | handOver g now =>
      intro t ht g' t' ht'
      by_cases hne : g' = g
      · rw [hne, ht] at ht'
        rw [Option.some.inj ht']
      · have hout : (w.step (.handOver g now)).2 = [⟨t.number, makeFrame w.publisher.cfg t.counter
            now t.payload⟩] := by
          simp only [step, handOver, ht]
        have hstill : (w.step (.handOver g now)).1.holding g' = some t' := by
          simp only [step, handOver, ht]
          exact (erase_ne _ hne).trans ht'
        rcases handed_later hstill acts with hend | ⟨o, ho, hnum⟩
        · rw [hidle g'] at hend
          exact absurd hend (by simp)
        · -- the counter passed over comes after this one
          rw [hout, Ordered, map_append] at horder
          have := (pairwise_append.1 horder).2.2 t.number (by simp) o.number
            (List.mem_map_of_mem ho)
          omega

end Writers

/-! ## The subscriber -/

/-- All the frames sent arrive, in order and undamaged, and none of them is too old. -/
structure Lossless (cfg : E2EConfig) (sent : List Bytes) (es : List Event) : Prop where
  inOrder : es.filterMap Event.index = List.range (es.filterMap Event.index).length
  intact : ∀ i raw now send, .frame i raw now send ∈ es →
    sent[i]? = some raw.payload ∧ ¬ cfg.Expired now (parseFrame raw.payload).ts

/-- No subscriber behind a lossless transport reports a gap. -/
def GapFree (sent : List Bytes) : Prop :=
  ∀ cfg past i raw now send, Lossless cfg sent (past ++ [.frame i raw now send]) →
    ¬ ReportsGap
      ((Run.run (fun s e => E2ESubscriber.step s (Event.input e)) (.new cfg) past).1.process
        raw now send).2

theorem verdict_of_fresh {sent : List Bytes} (hsent : Numbered sent) {cfg : E2EConfig} {i : Nat}
    {data : Bytes} {now : Int} (hdata : sent[i]? = some data)
    (hfresh : ¬ cfg.Expired now (parseFrame data).ts) :
    ∃ payload, verdict cfg data now = .accepted (UInt32.ofNat (i + 1)) payload := by
  obtain ⟨pub, sentAt, payload, rfl⟩ := hsent i data hdata
  rw [parseFrame_makeFrame] at hfresh
  exact ⟨payload, by rw [verdict_makeFrame, if_neg hfresh]⟩

theorem Lossless.accepted_eq {sent : List Bytes} (hsent : Numbered sent) {cfg : E2EConfig}
    {es : List Event} (h : Lossless cfg sent es) : acceptedFrames cfg es = es.filterMap index := by
  refine filterMap_congr fun e he => ?_
  cases e with
  | consume c => rfl
  | frame i raw now send =>
    obtain ⟨hdata, hfresh⟩ := h.intact i raw now send he
    obtain ⟨payload, hverdict⟩ := verdict_of_fresh hsent hdata hfresh
    simp only [accepted, index, hverdict]

theorem gapFree_of_numbered {sent : List Bytes} (hsent : Numbered sent) : GapFree sent := by
  intro cfg past i raw now send h
  have hindices := h.inOrder
  rw [filterMap_append, length_append] at hindices
  have hlast : [Event.frame i raw now send].filterMap index = [i] := rfl
  rw [hlast, length_singleton, range_succ] at hindices
  obtain ⟨hpast, hi⟩ := append_inj' hindices rfl
  have hbefore : Lossless cfg sent past := ⟨hpast, fun i raw now send he =>
    h.intact i raw now send (mem_append_left _ he)⟩
  have htracks := tracks_run hsent cfg fun e (he : e ∈ past) => by
    cases e with
    | consume c => trivial
    | frame i raw now send => exact .inl (hbefore.intact i raw now send he).1
  obtain ⟨hdata, hfresh⟩ := h.intact i raw now send (by simp)
  obtain ⟨payload, hverdict⟩ := verdict_of_fresh hsent hdata hfresh
  rw [← htracks.1] at hverdict
  rw [reportsGap_iff hverdict send, htracks.gap_iff, hbefore.accepted_eq hsent, hpast,
    singleton_inj.1 hi]
  rintro ⟨j, hj, hne⟩
  obtain ⟨hpos, rfl⟩ : 0 < (past.filterMap index).length ∧
      (past.filterMap index).length - 1 = j := by
    rw [getLast?_range] at hj
    split_ifs at hj with h0
    · exact absurd hj (by simp)
    · exact ⟨Nat.pos_of_ne_zero h0, Option.some.inj hj⟩
  rw [Nat.sub_add_cancel hpos] at hne
  exact hne (UInt32.ofNat_add _ 1)

theorem Writers.InStep.numbered {w : Writers} {os : List Handed} (h : Writers.InStep w os) :
    Numbered (os.map Handed.frame) := by
  intro i data hi
  rw [getElem?_map] at hi
  obtain ⟨o, ho, rfl⟩ := Option.map_eq_some_iff.1 hi
  exact (h.handed i o ho).2

theorem Writers.InStep.ordered {w : Writers} {os : List Handed} (h : Writers.InStep w os) :
    Writers.Ordered os := by
  have hnumbers : os.map Handed.number = (List.range os.length).map (· + 1) := by
    refine ext_getElem (by simp) fun i hi hi' => ?_
    have ho := getElem?_eq_getElem (l := os) (by simpa using hi)
    simpa using (h.handed i _ ho).1
  rw [Writers.Ordered, hnumbers, pairwise_map]
  exact pairwise_lt_range.imp fun h => succ_lt_succ h

/-- If every goroutine that hands over its frame holds the oldest of the counters not yet handed
over, the frames reach the wrapped publisher in order, and a subscriber behind a lossless
transport never reports a sequence gap. If all writes have ended, that is the only way to have
them in order. -/
theorem write_order_iff (cfg : E2EConfig) (acts : List Act) :
    (Run.Along (fun _ w a => w.InTurn a) Writers.step [] (.new cfg) acts →
      Writers.Ordered (Run.run Writers.step (.new cfg) acts).2 ∧
        GapFree ((Run.run Writers.step (.new cfg) acts).2.map Handed.frame)) ∧
    ((Run.run Writers.step (.new cfg) acts).1.Idle →
      Writers.Ordered (Run.run Writers.step (.new cfg) acts).2 →
        Run.Along (fun _ w a => w.InTurn a) Writers.step [] (.new cfg) acts) := by
  refine ⟨fun hturn => ?_, fun hidle horder => Writers.inTurn_of_ordered [] hidle horder⟩
  have hstep := Writers.inStep_run cfg hturn
  exact ⟨hstep.ordered, gapFree_of_numbered hstep.numbered⟩

/-- The second counter's frame is handed over first; a subscriber that receives both in this order
reports a gap. -/
theorem second_frame_first :
    let acts : List Act := [.take 0 [0x41], .take 1 [0x42], .handOver 1 0, .handOver 0 0]
    let handed := (Run.run Writers.step (.new { dataID := 1, sourceID := 1 }) acts).2
    let arrivals := handed.map fun o => Input.process
      { topic := [], payload := o.frame, timestamp := 0, sequenceNumber := 0,
        writerGUID := zeroGUID } 0 true
    handed.map Handed.number = [2, 1] ∧
      .error ⟨.sequenceGap, 1, .gap 1 3⟩ ∈
        (Run.run E2ESubscriber.step (.new { dataID := 1, sourceID := 1 }) arrivals).2 := by
  decide +kernel

end GoDDS.Safety
