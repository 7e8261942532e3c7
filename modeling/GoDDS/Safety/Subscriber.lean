import GoDDS.Lib.Fifo
import GoDDS.Lib.Run
import GoDDS.Rtps.Qos
import GoDDS.Safety.E2E

/-!
# The protected subscriber
-/

namespace GoDDS.Safety

open ByteCodec Go

/-! ## Reports -/

inductive E2EErrorKind where
  | crcMismatch
  | sequenceGap
  | staleSample
  | headerTooShort
  deriving DecidableEq

inductive Message where
  | tooShort (length : Nat)
  | crc (e : CrcMismatch)
  | stale (age maxAge : Int)
  | gap (received expected : UInt32)
  deriving DecidableEq

structure E2EError where
  kind : E2EErrorKind
  counter : UInt32
  message : Message
  deriving DecidableEq

inductive SafetyEventKind where
  | crcFailure
  | sequenceGap
  | staleSample
  | headerTooShort

structure SafetyEvent where
  kind : SafetyEventKind
  topic : Str
  counter : UInt32
  message : Message

def E2EErrorKind.event : E2EErrorKind → SafetyEventKind
  | crcMismatch => .crcFailure
  | sequenceGap => .sequenceGap
  | staleSample => .staleSample
  | headerTooShort => .headerTooShort

structure Metrics where
  crcFailures : UInt64
  sequenceGaps : UInt64
  staleSamples : UInt64
  headerTooShort : UInt64
  validSamples : UInt64
  deriving DecidableEq

def Metrics.count (m : Metrics) : E2EErrorKind → Metrics
  | .crcMismatch => { m with crcFailures := m.crcFailures + 1 }
  | .sequenceGap => { m with sequenceGaps := m.sequenceGaps + 1 }
  | .staleSample => { m with staleSamples := m.staleSamples + 1 }
  | .headerTooShort => { m with headerTooShort := m.headerTooShort + 1 }

/-- The time since `ts`; a duration does not go beyond 64 bits. -/
def age (now ts : Int) : Int := max (-2 ^ 63) (min (now - ts) (2 ^ 63 - 1))

def E2EConfig.Expired (cfg : E2EConfig) (now ts : Int) : Prop :=
  0 < cfg.maxAge ∧ cfg.maxAge < age now ts
  deriving Decidable

instance (data : Bytes) : Decidable (Accepted data) := inferInstanceAs (Decidable (_ = _))

theorem parseFrame_ok {data : Bytes} (h : Accepted data) :
    (parseFrame data).payload = .ok (data.drop headerSize) := by
  unfold parseFrame
  exact if_neg (not_not.2 h)

inductive Verdict where
  | rejected (kind : E2EErrorKind)
  | accepted (counter : UInt32) (payload : Bytes)

/-- The checks of `process` that do not depend on what came before. -/
def verdict (cfg : E2EConfig) (data : Bytes) (now : Int) : Verdict :=
  if data.length < headerSize then .rejected .headerTooShort
  else if ¬ Accepted data then .rejected .crcMismatch
  else if cfg.Expired now (parseFrame data).ts then .rejected .staleSample
  else .accepted (parseFrame data).counter (data.drop headerSize)

/-! ## The subscriber -/

/-- What is remembered of accepted frames, three channels, whether `Close` has begun, and
counters. -/
structure E2ESubscriber where
  cfg : E2EConfig
  lastCounter : UInt32
  hasFirst : Bool
  ch : Fifo Sample 64
  errCh : Fifo E2EError 32
  safetyEvCh : Fifo SafetyEvent 64
  done : Bool
  m : Metrics

/-- An error `process` reports, or a sample it puts on `C()`. A report that finds `Errors()` full is
counted. -/
inductive Output where
  | error (e : E2EError)
  | sample (x : Sample)
  deriving DecidableEq

namespace E2ESubscriber

def new (cfg : E2EConfig) : E2ESubscriber :=
  { cfg, lastCounter := 0, hasFirst := false, ch := Fifo.empty, errCh := Fifo.empty,
    safetyEvCh := Fifo.empty, done := false, m := ⟨0, 0, 0, 0, 0⟩ }

def emitError (s : E2ESubscriber) (e : E2EError) : E2ESubscriber :=
  { s with errCh := s.errCh.offer e }

def emitEvent (s : E2ESubscriber) (e : SafetyEvent) : E2ESubscriber :=
  { s with safetyEvCh := s.safetyEvCh.offer e }

/-- Count an error and report it on both channels, as `process` does it in four places. -/
def report (s : E2ESubscriber) (topic : Str) (kind : E2EErrorKind) (counter : UInt32)
    (message : Message) : E2ESubscriber × List Output :=
  ((({ s with m := s.m.count kind }).emitError ⟨kind, counter, message⟩).emitEvent
    ⟨kind.event, topic, counter, message⟩, [.error ⟨kind, counter, message⟩])

/-- The select at the end of `process`. With `done` closed and room, `send` is the scheduler's
choice. -/
def forward (s : E2ESubscriber) (x : Sample) (send : Bool) : E2ESubscriber × List Output :=
  if s.done && !send then (s, [])
  else
    match s.ch.trySend x with
    | none => (s, [])
    | some ch => ({ s with ch }, [.sample x])

def Gap (s : E2ESubscriber) (counter : UInt32) : Prop :=
  s.hasFirst = true ∧ counter ≠ s.lastCounter + 1
  deriving Decidable

def noteGap (s : E2ESubscriber) (topic : Str) (counter : UInt32) : E2ESubscriber × List Output :=
  if s.Gap counter then s.report topic .sequenceGap counter (.gap counter (s.lastCounter + 1))
  else (s, [])

def remember (s : E2ESubscriber) (counter : UInt32) : E2ESubscriber :=
  { s with
    hasFirst := true
    lastCounter := counter
    m := { s.m with validSamples := s.m.validSamples + 1 } }

def stripped (raw : Sample) (payload : Bytes) : Sample :=
  { topic := raw.topic, payload, timestamp := raw.timestamp, sequenceNumber := 0,
    writerGUID := zeroGUID }

def accept (s : E2ESubscriber) (raw : Sample) (counter : UInt32) (payload : Bytes) (send : Bool) :
    E2ESubscriber × List Output :=
  let told := s.noteGap raw.topic counter
  let sent := (told.1.remember counter).forward (stripped raw payload) send
  (sent.1, told.2 ++ sent.2)

/-- A frame is refused, or a jump of the counter is reported and the payload put on the channel
`C()` unless that is full. -/
def process (s : E2ESubscriber) (raw : Sample) (now : Int) (send : Bool) :
    E2ESubscriber × List Output :=
  if raw.payload.length < headerSize then
    s.report raw.topic .headerTooShort 0 (.tooShort raw.payload.length)
  else
    let frame := parseFrame raw.payload
    match frame.payload with
    | .error e => s.report raw.topic .crcMismatch frame.counter (.crc e)
    | .ok payload =>
      if s.cfg.Expired now frame.ts then
        s.report raw.topic .staleSample frame.counter (.stale (age now frame.ts) s.cfg.maxAge)
      else s.accept raw frame.counter payload send

end E2ESubscriber

inductive Consume where
  | read
  | readError
  | readEvent
  | close

inductive Input where
  | process (raw : Sample) (now : Int) (send : Bool)
  | consume (c : Consume)

variable {payload : Bytes} {counter : UInt32}

namespace E2ESubscriber

def consume (s : E2ESubscriber) : Consume → E2ESubscriber
  | .read => { s with ch := s.ch.receive }
  | .readError => { s with errCh := s.errCh.receive }
  | .readEvent => { s with safetyEvCh := s.safetyEvCh.receive }
  | .close => { s with done := true }

def step (s : E2ESubscriber) : Input → E2ESubscriber × List Output
  | .process raw now send => s.process raw now send
  | .consume c => (s.consume c, [])

/-! ## What processing a sample does -/

variable {s : E2ESubscriber} {raw : Sample} {now : Int} {send : Bool}

theorem process_rejected {kind : E2EErrorKind} (h : verdict s.cfg raw.payload now = .rejected kind)
    (send : Bool) :
    ∃ counter message, s.process raw now send = s.report raw.topic kind counter message := by
  unfold verdict at h
  unfold process
  by_cases hshort : raw.payload.length < headerSize
  · rw [if_pos hshort] at h ⊢
    obtain rfl := Verdict.rejected.inj h
    exact ⟨_, _, rfl⟩
  rw [if_neg hshort] at h ⊢
  by_cases hcrc : Accepted raw.payload
  · rw [if_neg (not_not.2 hcrc)] at h
    have hok := parseFrame_ok hcrc
    split_ifs at h with hstale
    obtain rfl := Verdict.rejected.inj h
    simp only [hok, if_pos hstale]
    exact ⟨_, _, rfl⟩
  · rw [if_pos hcrc] at h
    obtain rfl := Verdict.rejected.inj h
    obtain ⟨e, he⟩ := (parseFrame_error_iff _).2 hcrc
    simp only [he]
    exact ⟨_, _, rfl⟩

theorem process_accepted (h : verdict s.cfg raw.payload now = .accepted counter payload)
    (send : Bool) : s.process raw now send = s.accept raw counter payload send := by
  unfold verdict at h
  unfold process
  split_ifs at h with hshort hcrc hstale
  obtain ⟨rfl, rfl⟩ := Verdict.accepted.inj h
  simp only [if_neg hshort, parseFrame_ok hcrc, if_neg hstale]

def Takes (s : E2ESubscriber) (send : Bool) : Prop := ¬ s.ch.Full ∧ (s.done = true → send = true)
  deriving Decidable

variable (s)

theorem forward_eq (x : Sample) (send : Bool) : s.forward x send =
      if s.Takes send then ({ s with ch := s.ch.offer x }, [.sample x]) else (s, []) := by
  unfold forward Fifo.offer
  by_cases hfull : s.ch.Full
  · rw [Fifo.trySend_eq_none.2 hfull, ite_self, if_neg fun h => h.1 hfull]
  · obtain ⟨ch, hch⟩ := Option.ne_none_iff_exists'.1 (mt Fifo.trySend_eq_none.1 hfull)
    rw [hch]
    by_cases hdone : s.done = true <;> cases send <;> simp [Takes, hfull, hdone]

theorem noteGap_same (topic : Str) (counter : UInt32) :
    (s.noteGap topic counter).1.cfg = s.cfg ∧ (s.noteGap topic counter).1.ch = s.ch ∧
      (s.noteGap topic counter).1.done = s.done := by
  unfold noteGap
  split_ifs <;> exact ⟨rfl, rfl, rfl⟩

theorem accept_outputs (raw : Sample) (counter : UInt32) (payload : Bytes)
    (send : Bool) : (s.accept raw counter payload send).2 = (s.noteGap raw.topic counter).2 ++
        if s.Takes send then [.sample (stripped raw payload)] else [] := by
  obtain ⟨-, hch, hdone⟩ := s.noteGap_same raw.topic counter
  have htakes : ((s.noteGap raw.topic counter).1.remember counter).Takes send ↔ s.Takes send := by
    simp only [Takes, remember, hch, hdone]
  unfold accept
  simp only [forward_eq, htakes]
  split_ifs <;> rfl

theorem accept_remembers (raw : Sample) (counter : UInt32) (payload : Bytes)
    (send : Bool) : (s.accept raw counter payload send).1.cfg = s.cfg ∧
      (s.accept raw counter payload send).1.hasFirst ∧
      (s.accept raw counter payload send).1.lastCounter = counter := by
  have hcfg := (s.noteGap_same raw.topic counter).1
  unfold accept
  simp only [forward_eq]
  split_ifs <;> exact ⟨hcfg, rfl, rfl⟩

variable {s}

theorem sample_mem_accept :
    (∃ x, .sample x ∈ (s.accept raw counter payload send).2) ↔ s.Takes send := by
  rw [accept_outputs]
  unfold noteGap report
  split_ifs <;> simp_all

theorem error_mem_accept {e : E2EError} : .error e ∈ (s.accept raw counter payload send).2 ↔
      s.Gap counter ∧ e = ⟨.sequenceGap, counter, .gap counter (s.lastCounter + 1)⟩ := by
  rw [accept_outputs]
  unfold noteGap report
  split_ifs <;> simp_all

end E2ESubscriber

theorem verdict_makeFrame (cfg pub : E2EConfig) (counter : UInt32) (sentAt now : Int)
    (payload : Bytes) : verdict cfg (makeFrame pub counter sentAt payload) now =
      if cfg.Expired now (Int.bmod sentAt (2 ^ 64)) then .rejected .staleSample
      else .accepted counter payload := by
  have hlong : ¬ (makeFrame pub counter sentAt payload).length < headerSize := by
    rw [length_makeFrame]
    omega
  have hok := parseFrame_ok (accepted_makeFrame pub counter sentAt payload)
  rw [parseFrame_makeFrame] at hok
  unfold verdict
  rw [if_neg hlong, if_neg (not_not.2 (accepted_makeFrame pub counter sentAt payload)),
    parseFrame_makeFrame, ← Except.ok.inj hok]

def E2EConfig.Foreign (cfg pub : E2EConfig) : Prop :=
  pub.dataID ≠ cfg.dataID ∨ pub.sourceID ≠ cfg.sourceID
  deriving Decidable

def Refused (os : List Output) : Prop := (¬ ∃ x, .sample x ∈ os) ∧ ∃ e, .error e ∈ os

open E2ESubscriber

/-- A frame of a publisher with other identifiers is refused and reported only if it is too old, or
if it comes with a jump of the counter while `C()` takes nothing. -/
theorem masquerade_refused_iff (s : E2ESubscriber) (pub : E2EConfig) (counter : UInt32)
    (sentAt now : Int) (payload : Bytes) (raw : Sample) (send : Bool) : (s.cfg.Foreign pub →
      Refused (s.process { raw with payload := makeFrame pub counter sentAt payload } now send).2) ↔
    ¬ s.cfg.Foreign pub ∨ s.cfg.Expired now (Int.bmod sentAt (2 ^ 64)) ∨
      s.Gap counter ∧ ¬ s.Takes send := by
  obtain ⟨r, hr, hpayload⟩ : ∃ r : Sample,
      r = { raw with payload := makeFrame pub counter sentAt payload } ∧
        r.payload = makeFrame pub counter sentAt payload := ⟨_, rfl, rfl⟩
  have hverdict := verdict_makeFrame s.cfg pub counter sentAt now payload
  rw [← hpayload] at hverdict
  rw [imp_iff_not_or, ← hr]
  refine or_congr_right ?_
  by_cases hold : s.cfg.Expired now (Int.bmod sentAt (2 ^ 64))
  · rw [if_pos hold] at hverdict
    obtain ⟨c, message, hprocess⟩ := s.process_rejected hverdict send
    rw [hprocess]
    refine ⟨fun _ => .inl hold, fun _ => ?_⟩
    simp [Refused, report]
  · rw [if_neg hold] at hverdict
    rw [s.process_accepted hverdict send]
    simp only [Refused, sample_mem_accept, error_mem_accept, hold,
      false_or, and_comm, exists_and_left, exists_eq, true_and]

theorem masquerade_delivered :
    let s := new { dataID := 1, sourceID := 1 }
    let pub : E2EConfig := { dataID := 2, sourceID := 2 }
    let raw : Sample := { topic := [], payload := makeFrame pub 1 0 [0x41], timestamp := 0,
                          sequenceNumber := 1, writerGUID := zeroGUID }
    s.cfg.Foreign pub ∧
      (s.process raw 0 true).2 = [.sample (stripped raw [0x41])] := by decide +kernel

end GoDDS.Safety
