import GoDDS.Rtps.Participant

/-!
# Closing a reader that writers wait for

`deliverToReader` holds the reader's lock for reading while it sends, and a blocking send waits for
room. `Close` asks for the lock for writing, which keeps further deliveries out.
-/

namespace GoDDS.Rtps.Closing

open ByteCodec Go Participant ReaderConfig
open List hiding not_lt

/-! ## The steps between two uses of the lock -/

inductive Phase
  | idle
  | listed (d : Dispatch)
  | asking (d : Dispatch)
  | wanted (d : Dispatch)
  /-- In `deliverToReader`, with the lock for reading and the sample unsent. -/
  | sending (d : Dispatch)
  | leaving

def Phase.holds : Phase → Bool
  | .asking _ | .sending _ | .leaving => true
  | _ => false

def Phase.isSending : Phase → Bool
  | .sending _ => true
  | _ => false

inductive Closer
  | opened
  | unsubscribed
  | waiting
  | locked
  | unlocked
  | closed
  deriving DecidableEq

/-- New read locks are given out: no writer has the lock or waits for it. -/
def Closer.admits : Closer → Bool
  | .waiting | .locked => false
  | _ => true

/-- The reader, whether it is listed, the call each writer is in (one, under the writer's lock), and
`Close`. -/
structure State where
  reader : Reader
  registered : Bool
  calls : List Phase
  closer : Closer

inductive Step
  | write (i : Nat) (d : Dispatch)
  | ask (i : Nat)
  | asked (i : Nat) (wants : Bool)
  | enter (i : Nat)
  | send (i : Nat)
  | leave (i : Nat)
  | read
  | unsubscribe
  | lock
  | acquire
  | unlock
  | closeChannel

variable {d : Dispatch} {i : Nat} {s : State}

namespace State

def setCall (s : State) (i : Nat) (c : Phase) : State :=
  { s with calls := s.calls.set i c }

def canSend (r : Reader) : Bool :=
  r.backPressure != .block || r.ch.length < r.depth

/-- One step. A step whose goroutine is elsewhere, or has to wait, does nothing. -/
def step (s : State) : Step → State × List Sample
  | .write i d =>
    match s.calls[i]? with
    | some .idle => if s.registered then (s.setCall i (.listed d), []) else (s, [])
    | _ => (s, [])
  | .ask i =>
    match s.calls[i]? with
    | some (.listed d) => if s.closer.admits then (s.setCall i (.asking d), []) else (s, [])
    | _ => (s, [])
  | .asked i wants =>
    match s.calls[i]? with
    | some (.asking d) => (s.setCall i (if wants then .wanted d else .idle), [])
    | _ => (s, [])
  | .enter i =>
    match s.calls[i]? with
    | some (.wanted d) =>
      if s.closer.admits then (s.setCall i (if s.reader.closed then .leaving else .sending d), [])
      else (s, [])
    | _ => (s, [])
  | .send i =>
    match s.calls[i]? with
    | some (.sending d) =>
      if canSend s.reader then
        ({ s.setCall i .leaving with reader := (s.reader.push (d.sample s.reader)).1 }, [])
      else (s, [])
    | _ => (s, [])
  | .leave i =>
    match s.calls[i]? with
    | some .leaving => (s.setCall i .idle, [])
    | _ => (s, [])
  | .read =>
    match s.reader.ch with
    | x :: rest => ({ s with reader := { s.reader with ch := rest } }, [x])
    | [] => (s, [])
  | .unsubscribe =>
    match s.closer with
    | .opened => ({ s with registered := false, closer := .unsubscribed }, [])
    | _ => (s, [])
  | .lock =>
    match s.closer with
    | .unsubscribed => ({ s with closer := .waiting }, [])
    | _ => (s, [])
  | .acquire =>
    match s.closer with
    | .waiting =>
      if s.calls.any Phase.holds then (s, [])
      else ({ s with reader := { s.reader with closed := true }, closer := .locked }, [])
    | _ => (s, [])
  | .unlock =>
    match s.closer with
    | .locked => ({ s with closer := .unlocked }, [])
    | _ => (s, [])
  | .closeChannel =>
    match s.closer with
    | .unlocked => ({ s with closer := .closed }, [])
    | _ => (s, [])

def start (r : Reader) (n : Nat) : State :=
  { reader := r, registered := true, calls := List.replicate n .idle, closer := .opened }

def after (s : State) (es : List Step) : State := (Run.run step s es).1

/-! ## What a step does -/

inductive Change (s : State) : Step → State → Prop
  | still (e : Step) : Change s e s
  | moved {e : Step} {i : Nat} {c c' : Phase} (hc : s.calls[i]? = some c)
      (hidle : c.isSending = false) (hidle' : c'.isSending = false) : Change s e (s.setCall i c')
  | entered {i : Nat} {d : Dispatch} (hc : s.calls[i]? = some (.wanted d))
      (hadmits : s.closer.admits = true) (hopen : s.reader.closed = false) :
      Change s (.enter i) (s.setCall i (.sending d))
  | sent {i : Nat} {d : Dispatch} (hc : s.calls[i]? = some (.sending d))
      (hsend : canSend s.reader = true) :
      Change s (.send i)
        { s.setCall i .leaving with reader := (s.reader.push (d.sample s.reader)).1 }
  | read {x : Sample} {rest : List Sample} (hch : s.reader.ch = x :: rest) :
      Change s .read { s with reader := { s.reader with ch := rest } }
  | unsubscribed (hcloser : s.closer = .opened) :
      Change s .unsubscribe { s with registered := false, closer := .unsubscribed }
  | asked (hcloser : s.closer = .unsubscribed) : Change s .lock { s with closer := .waiting }
  | acquired (hcloser : s.closer = .waiting) (hfree : ∀ c ∈ s.calls, c.holds = false) :
      Change s .acquire { s with reader := { s.reader with closed := true }, closer := .locked }
  | unlocked (hcloser : s.closer = .locked) : Change s .unlock { s with closer := .unlocked }
  | closed (hcloser : s.closer = .unlocked) : Change s .closeChannel { s with closer := .closed }

variable (s)

theorem step_change (e : Step) : s.Change e (s.step e).1 := by
  cases e <;> simp only [step]
  case write i d =>
    split
    · next hc =>
      split_ifs
      · exact .moved hc rfl rfl
      · exact .still _
    · exact .still _
  case ask i =>
    split
    · next hc =>
      split_ifs
      · exact .moved hc rfl rfl
      · exact .still _
    · exact .still _
  case asked i wants =>
    split
    · next hc =>
      refine .moved hc rfl ?_
      cases wants <;> rfl
    · exact .still _
  case enter i =>
    split
    · next hc =>
      split_ifs with hadmits hclosed
      · exact .moved hc rfl rfl
      · exact .entered hc hadmits (Bool.eq_false_iff.2 hclosed)
      · exact .still _
    · exact .still _
  case send i =>
    split
    · next hc =>
      split_ifs with hsend
      · exact .sent hc hsend
      · exact .still _
    · exact .still _
  case leave i =>
    split
    · next hc => exact .moved hc rfl rfl
    · exact .still _
  case read =>
    split
    · next hch => exact .read hch
    · exact .still _
  case unsubscribe =>
    split
    · next h => exact .unsubscribed h
    · exact .still _
  case lock =>
    split
    · next h => exact .asked h
    · exact .still _
  case acquire =>
    split
    · next h =>
      split_ifs with hany
      · exact .still _
      · refine .acquired h fun c hc => ?_
        by_contra hholds
        exact hany (List.any_eq_true.2 ⟨c, hc, Bool.eq_true_of_not_eq_false hholds⟩)
    · exact .still _
  case unlock =>
    split
    · next h => exact .unlocked h
    · exact .still _
  case closeChannel =>
    split
    · next h => exact .closed h
    · exact .still _

theorem after_cons (e : Step) (es : List Step) :
    s.after (e :: es) = (s.step e).1.after es := rfl

theorem after_append (es es' : List Step) :
    s.after (es ++ es') = (s.after es).after es' := by
  rw [after, Run.run_append]
  rfl

theorem config_step (e : Step) :
    (s.step e).1.reader.config = s.reader.config := by
  have hchange := step_change s e
  generalize (s.step e).1 = s' at hchange
  cases hchange with
  | sent _ _ => exact (Reader.sameMatch_push s.reader _).cfg
  | _ => rfl

theorem config_after (es : List Step) :
    (s.after es).reader.config = s.reader.config :=
  Run.run_invariant (I := fun q => q.reader.config = s.reader.config)
    (fun q e h => (config_step q e).trans h) rfl es

variable {s}

theorem call_setCall {c : Phase} (hc : s.calls[i]? = some c) (c' : Phase) :
    (s.setCall i c').calls[i]? = some c' := by
  obtain ⟨hi, -⟩ := List.getElem?_eq_some_iff.1 hc
  exact getElem?_set_self hi

theorem step_enter (hc : s.calls[i]? = some (.wanted d)) (hadmits : s.closer.admits) :
    (s.step (.enter i)).1 = s.setCall i (if s.reader.closed then .leaving else .sending d) := by
  simp only [step, hc, if_pos hadmits]

theorem step_send (hc : s.calls[i]? = some (.sending d)) (hsend : canSend s.reader) :
    (s.step (.send i)).1 =
      { s.setCall i .leaving with reader := (s.reader.push (d.sample s.reader)).1 } := by
  simp only [step, hc, if_pos hsend]

theorem reader_leave (i : Nat) : (s.step (.leave i)).1.reader = s.reader := by
  simp only [step]
  split <;> rfl

/-- A delivery that is let in and finds room does what `deliverToReader` does. -/
theorem deliver_alone (hc : s.calls[i]? = some (.wanted d)) (hadmits : s.closer.admits)
    (hsend : s.reader.closed = false → canSend s.reader) :
    (s.after [.enter i, .send i, .leave i]).reader = (deliverToReader d s.reader).1 := by
  have hrun : (s.after [.enter i, .send i, .leave i]).reader =
      (((s.step (.enter i)).1).step (.send i)).1.reader := reader_leave i
  rw [hrun, step_enter hc hadmits, deliverToReader]
  cases hclosed : s.reader.closed with
  | true =>
    have hinside := call_setCall hc .leaving
    simp only [if_true, step, hinside]
    rfl
  | false =>
    have hinside := call_setCall hc (.sending d)
    simp only [Bool.false_eq_true, if_false]
    rw [step_send hinside (hsend hclosed)]
    rfl

/-! ## Room and deliveries inside -/

def senders (s : State) : Nat := s.calls.countP Phase.isSending

def room (s : State) : Nat := s.reader.depth - s.reader.ch.length

open Phase

theorem countP_set_same {l : List Phase} {c c' : Phase} (hc : l[i]? = some c)
    (hsame : c'.isSending = c.isSending) : (l.set i c').countP isSending = l.countP isSending := by
  obtain ⟨hi, rfl⟩ := List.getElem?_eq_some_iff.1 hc
  rw [countP_set hi, hsame]
  have hpos : l[i].isSending = true → 0 < l.countP isSending := fun h =>
    countP_pos_iff.2 ⟨l[i], getElem_mem hi, h⟩
  split_ifs with h
  · have := hpos h
    omega
  · omega

theorem countP_set_sent {l : List Phase} (hc : l[i]? = some (.sending d)) :
    (l.set i .leaving).countP isSending + 1 = l.countP isSending := by
  obtain ⟨hi, hget⟩ := List.getElem?_eq_some_iff.1 hc
  have hpos : 0 < l.countP isSending :=
    countP_pos_iff.2 ⟨l[i], getElem_mem hi, by rw [hget]; rfl⟩
  rw [countP_set hi, hget]
  simp only [isSending, if_true, Bool.false_eq_true, if_false]
  omega

theorem canSend_iff {r : Reader} (hblock : r.backPressure = .block) :
    canSend r ↔ r.ch.length < r.depth := by
  simp [canSend, hblock]

theorem length_push {r : Reader} (hblock : r.backPressure = .block) (x : Sample) :
    (r.push x).1.ch.length = r.ch.length + 1 := by
  simp [Reader.push, hblock]

theorem counts_send (hblock : s.reader.backPressure = .block) (hc : s.calls[i]? = some (.sending d))
    (hroom : s.reader.ch.length < s.reader.depth) :
    (s.step (.send i)).1.closer = s.closer ∧ (s.step (.send i)).1.senders + 1 = s.senders ∧
      (s.step (.send i)).1.room + 1 = s.room := by
  rw [step_send hc ((canSend_iff hblock).2 hroom)]
  refine ⟨rfl, countP_set_sent hc, ?_⟩
  have hdepth : (s.reader.push (d.sample s.reader)).1.depth = s.reader.depth :=
    congrArg depth (Reader.sameMatch_push s.reader _).cfg
  unfold room
  rw [hdepth, length_push hblock]
  omega

def Past (s : State) : Prop :=
  s.closer = .locked ∨ s.closer = .unlocked ∨ s.closer = .closed

theorem senders_pos (hc : s.calls[i]? = some (.sending d)) : 0 < s.senders :=
  countP_pos_iff.2 ⟨_, mem_of_getElem? hc, rfl⟩

/-- `Close` has the lock behind it, or waits and every delivery inside has room for its sample. -/
def Settled (s : State) : Prop :=
  s.Past ∨ s.closer = .waiting ∧ s.senders ≤ s.room

theorem settled_step (hblock : s.reader.backPressure = .block) (h : s.Settled) (e : Step) :
    (s.step e).1.Settled := by
  have hchange := step_change s e
  generalize (s.step e).1 = s' at hchange
  cases hchange with
  | still => exact h
  | @moved _ i c c' hc hidle hidle' =>
    have hsame : (s.setCall i c').senders = s.senders :=
      countP_set_same hc (hidle'.trans hidle.symm)
    unfold Settled
    rw [hsame]
    exact h
  | entered _ hadmits _ =>
    -- A waiting `Close` lets nobody in.
    rcases h with h | ⟨h, -⟩
    · exact .inl h
    · rw [h] at hadmits
      cases hadmits
  | @sent i d hc hsend =>
    have hcounts := counts_send hblock hc ((canSend_iff hblock).1 hsend)
    rw [step_send hc hsend] at hcounts
    obtain ⟨-, hsenders, hrooms⟩ := hcounts
    rcases h with h | ⟨h, hle⟩
    · exact .inl h
    · exact .inr ⟨h, by omega⟩
  | @read x rest hch =>
    rcases h with h | ⟨h, hle⟩
    · exact .inl h
    · refine .inr ⟨h, hle.trans ?_⟩
      unfold room
      rw [hch]
      simp only [length_cons]
      omega
  | unsubscribed hcloser => simp [Settled, Past, hcloser] at h
  | asked hcloser => simp [Settled, Past, hcloser] at h
  | acquired _ _ => exact .inl (.inl rfl)
  | unlocked _ => exact .inl (.inr (.inl rfl))
  | closed _ => exact .inl (.inr (.inr rfl))

theorem settled_after (hblock : s.reader.backPressure = .block) (h : s.Settled) (es : List Step) :
    (s.after es).Settled := by
  have hrun : (s.after es).reader.backPressure = .block ∧ (s.after es).Settled :=
    Run.run_invariant (I := fun q => q.reader.backPressure = .block ∧ q.Settled)
      (fun q e hq => ⟨(congrArg backPressure (config_step q e)).trans hq.1,
        settled_step hq.1 hq.2 e⟩) ⟨hblock, h⟩ es
  exact hrun.2

/-! ## Too little room -/

/-- If nobody reads, `Close` waits for ever: a delivery stays inside with its sample unsent. -/
def Deadlocked (s : State) : Prop :=
  ∃ (i : Nat) (d : Dispatch), ∀ es, Step.read ∉ es →
    (s.after es).closer = .waiting ∧ (s.after es).calls[i]? = some (.sending d)

structure Full (s : State) (i : Nat) (d : Dispatch) : Prop where
  block : s.reader.backPressure = .block
  waiting : s.closer = .waiting
  inside : s.calls[i]? = some (.sending d)
  full : s.reader.depth ≤ s.reader.ch.length

theorem full_step (h : s.Full i d) {e : Step} (hread : e ≠ .read) : (s.step e).1.Full i d := by
  have hchange := step_change s e
  generalize (s.step e).1 = s' at hchange
  cases hchange with
  | still => exact h
  | @moved _ j c c' hc hidle _ =>
    refine ⟨h.block, h.waiting, ?_, h.full⟩
    have hne : j ≠ i := by
      rintro rfl
      rw [h.inside] at hc
      obtain rfl := Option.some.inj hc
      cases hidle
    change (s.calls.set j c')[i]? = _
    rw [getElem?_set_ne hne]
    exact h.inside
  | entered _ hadmits _ =>
    rw [h.waiting] at hadmits
    cases hadmits
  | sent _ hsend => exact absurd ((canSend_iff h.block).1 hsend) (not_lt.2 h.full)
  | read _ => exact absurd rfl hread
  | unsubscribed hcloser => cases h.waiting.symm.trans hcloser
  | asked hcloser => cases h.waiting.symm.trans hcloser
  | acquired _ hfree => cases hfree _ (mem_of_getElem? h.inside)
  | unlocked hcloser => cases h.waiting.symm.trans hcloser
  | closed hcloser => cases h.waiting.symm.trans hcloser

theorem full_after (h : s.Full i d) {es : List Step} (hread : Step.read ∉ es) :
    (s.after es).Full i d := by
  induction es generalizing s with
  | nil => exact h
  | cons e es ih =>
    obtain ⟨hne, hrest⟩ := not_or.1 (mt mem_cons.2 hread)
    exact ih (full_step h (Ne.symm hne)) hrest

theorem deadlocked_of_full (h : s.Full i d) : s.Deadlocked :=
  ⟨i, d, fun _ hread => ⟨(full_after h hread).waiting, (full_after h hread).inside⟩⟩

theorem exists_sending (h : 0 < s.senders) :
    ∃ (i : Nat) (d : Dispatch), s.calls[i]? = some (.sending d) := by
  obtain ⟨c, hmem, hc⟩ := countP_pos_iff.1 h
  obtain ⟨i, hi⟩ := getElem?_of_mem hmem
  cases c with
  | sending d => exact ⟨i, d, hi⟩
  | _ => cases hc

theorem deadlocked_of_senders (hblock : s.reader.backPressure = .block)
    (hwaiting : s.closer = .waiting) (h : s.room < s.senders) : ∃ es, (s.after es).Deadlocked := by
  -- By induction on the room left.
  induction hk : s.room generalizing s with
  | zero =>
    obtain ⟨i, d, hc⟩ := exists_sending (Nat.zero_lt_of_lt h)
    have hfull : s.reader.depth ≤ s.reader.ch.length := Nat.le_of_sub_eq_zero hk
    exact ⟨[], deadlocked_of_full ⟨hblock, hwaiting, hc, hfull⟩⟩
  | succ k ih =>
    obtain ⟨i, d, hc⟩ := exists_sending (Nat.zero_lt_of_lt h)
    have hroom : s.reader.ch.length < s.reader.depth := by
      unfold room at hk
      omega
    obtain ⟨hcloser, hsenders, hrooms⟩ := counts_send hblock hc hroom
    have hblock' := (congrArg backPressure (config_step s (.send i))).trans hblock
    obtain ⟨es, hes⟩ := ih hblock' (hcloser.trans hwaiting) (by omega) (by omega)
    exact ⟨.send i :: es, hes⟩

theorem not_deadlocked (hblock : s.reader.backPressure = .block) (h : s.Settled) :
    ¬ s.Deadlocked := by
  rintro ⟨i, d, hstuck⟩
  obtain ⟨hwaiting, hc⟩ := hstuck [] (not_mem_nil)
  change s.closer = .waiting at hwaiting
  change s.calls[i]? = some (.sending d) at hc
  have hle : s.senders ≤ s.room := by
    rcases h with h | ⟨-, hle⟩
    · simp [Past, hwaiting] at h
    · exact hle
  have hpos := senders_pos hc
  have hroom : s.reader.ch.length < s.reader.depth := by
    unfold room at hle
    omega
  have hsent := (hstuck [.send i] (by simp)).2
  rw [after_cons, step_send hc ((canSend_iff hblock).2 hroom)] at hsent
  cases Option.some.inj ((call_setCall hc .leaving).symm.trans hsent)

/-- After any run of writes and reads, `Close` can come to wait for ever, for a delivery that waits
for room in a channel nobody reads, exactly if more deliveries are inside with their sample unsent
than the channel has room for. -/
theorem close_deadlocks_iff (r : Reader) (hblock : r.backPressure = .block) (n : Nat)
    (past : List Step) (hclose : ((start r n).after past).closer = .unsubscribed) :
    (∃ es, ((start r n).after (past ++ .lock :: es)).Deadlocked) ↔
      ((start r n).after past).room < ((start r n).after past).senders := by
  have hconfig := config_after (start r n) past
  simp only [after_append, after_cons]
  generalize (start r n).after past = s at hclose hconfig
  have hblock' : s.reader.backPressure = .block :=
    (congrArg backPressure hconfig).trans hblock
  have hlock : (s.step .lock).1 = { s with closer := .waiting } := by
    simp only [step, hclose]
  rw [hlock]
  constructor
  · rintro ⟨es, hes⟩
    by_contra hroom
    have hsettled : Settled { s with closer := .waiting } :=
      .inr ⟨rfl, not_lt.1 hroom⟩
    have hwaiting : ({ s with closer := .waiting } : State).reader.backPressure = .block := hblock'
    refine not_deadlocked ?_ (settled_after hwaiting hsettled es) hes
    exact (congrArg backPressure (config_after _ es)).trans hwaiting
  · exact fun h => deadlocked_of_senders hblock' rfl h

def blockingReader : Reader :=
  Reader.new { ReaderConfig.ofDefaults (str "t") (entityIdForReader 1) false with
    backPressure := .block, depth := 1, depth_pos := Nat.one_pos }

def dispatchBy (n : UInt32) : Dispatch :=
  { source := ⟨FixedBytes.copy 12 [1], entityIdForWriter n⟩, topicFilter := str "t", payload := [7],
    ts := 0, seqNum := 1, sn := 1, writerPartitions := [], now := 0 }

def comesIn (i : Nat) (d : Dispatch) : List Step :=
  [.write i d, .ask i, .asked i true, .enter i]

theorem close_with_room :
    let past := comesIn 0 (dispatchBy 1) ++ [.unsubscribe]
    ((start blockingReader 2).after past).senders = 1 ∧
      ¬ ∃ es, ((start blockingReader 2).after (past ++ .lock :: es)).Deadlocked := by
  refine ⟨by decide +kernel, ?_⟩
  rw [close_deadlocks_iff blockingReader rfl 2 _ (by decide +kernel)]
  decide +kernel

/-- A first sample fills the channel, a second writer waits for room, and `Close` waits for it. -/
theorem close_behind_blocked_send :
    ((start blockingReader 2).after (comesIn 0 (dispatchBy 1) ++ [.send 0, .leave 0] ++
      comesIn 1 (dispatchBy 2) ++ [.unsubscribe, .lock])).Deadlocked := by
  have hfull : Full ((start blockingReader 2).after (comesIn 0 (dispatchBy 1) ++
      [.send 0, .leave 0] ++ comesIn 1 (dispatchBy 2) ++ [.unsubscribe, .lock])) 1
      (dispatchBy 2) := ⟨rfl, rfl, rfl, by decide +kernel⟩
  exact deadlocked_of_full hfull

/-- Once `Close` has the lock behind it, no delivery is about to send. -/
def Shut (s : State) : Prop := s.Past → s.reader.closed ∧ s.senders = 0

theorem shut_step (h : s.Shut) (e : Step) : (s.step e).1.Shut := by
  have hchange := step_change s e
  generalize (s.step e).1 = s' at hchange
  cases hchange with
  | moved hc hidle hidle' =>
    rwa [Shut, senders, setCall, countP_set_same hc (hidle'.trans hidle.symm)]
  | entered _ _ hopen => exact fun hp => absurd (h hp).1 (by simp [hopen])
  | sent hc _ => exact fun hp => absurd (h hp).2 (senders_pos hc).ne'
  | unsubscribed | asked => simp [Shut, Past]
  | acquired _ hfree =>
    refine fun _ => ⟨rfl, countP_eq_zero.2 fun c hc hs => ?_⟩
    cases c with
    | sending d => cases hfree _ hc
    | _ => cases hs
  | unlocked hlock => exact fun _ => h (.inl hlock)
  | closed hlock => exact fun _ => h (.inr (.inl hlock))
  | _ => exact h

/-- No delivery sends on the closed channel. -/
theorem no_send_when_closed (r : Reader) (n : Nat) (es : List Step) : ((start r n).after es).Shut :=
  Run.run_invariant (I := Shut) (fun _ e h => shut_step h e) (by simp [Shut, Past, start]) es

end State

end GoDDS.Rtps.Closing
