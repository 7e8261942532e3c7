import GoDDS.Rtps.AtMostOnce
import GoDDS.Rtps.Drain

/-!
# Two participants on a lossless link
-/

namespace GoDDS

open ByteCodec Go Security List Option Registry RecvTracker Outgoing SendHistory

def maxDatagram : Nat := 65507

/-- What a participant sends enters the queue to the other, except what does not fit a UDP datagram.
-/
def sentBy (own : GuidPrefix) (effs : List Effect) : List Bytes :=
  (effs.filterMap fun e =>
    match e with
    | .unicast _ _ out => some (out.bytes own)
    | .multicast _ msg => some msg
    | _ => none).filter fun msg => msg.length ≤ maxDatagram

/-- Two participants and the queues between them. -/
structure Link where
  sender : Participant
  receiver : Participant
  senderAddr : UDPAddr
  receiverAddr : UDPAddr
  toReceiver : List Bytes
  toSender : List Bytes

inductive LinkEvent where
  | write (eid : EntityId) (payload rnd : Bytes) (now : Int)
  | heartbeatTick (eid : EntityId)
  | deliverToReceiver (now : Int)
  | deliverToSender (now : Int)

def LinkEvent.isWrite : LinkEvent → Bool
  | .write _ _ _ _ => true
  | _ => false

namespace Link

def afterSender (l : Link) (r : Participant × List Effect) : Link × List Effect :=
  ({ l with sender := r.1, toReceiver := l.toReceiver ++ sentBy l.sender.guidPrefix r.2 }, r.2)

def afterReceiver (l : Link) (r : Participant × List Effect) : Link × List Effect :=
  ({ l with receiver := r.1, toSender := l.toSender ++ sentBy l.receiver.guidPrefix r.2 }, r.2)

def step (l : Link) : LinkEvent → Link × List Effect
  | .write eid payload rnd now => l.afterSender (l.sender.writeBy eid payload rnd now)
  | .heartbeatTick eid => l.afterSender (l.sender.heartbeatTick eid)
  | .deliverToReceiver now =>
    match l.toReceiver with
    | [] => (l, [])
    | msg :: rest =>
      { l with toReceiver := rest }.afterReceiver
        (l.receiver.handleDataPacket ⟨msg, some l.senderAddr, now⟩)
  | .deliverToSender now =>
    match l.toSender with
    | [] => (l, [])
    | msg :: rest =>
      { l with toSender := rest }.afterSender
        (l.sender.handleDataPacket ⟨msg, some l.receiverAddr, now⟩)

end Link

/-! ## What participants send -/

variable {msg payload : Bytes} {eid : EntityId} {g : GUID} {own : GuidPrefix} {now : Int} {l : Link}
  {msgs : List Bytes} {n n' : Nat} {op : Op} {src : Option UDPAddr} {p : Participant} {sn : UInt64}
  {v w : Writer}

theorem mem_sentBy {effs : List Effect} (h : msg ∈ sentBy own effs) :
    msg.length ≤ maxDatagram ∧ ∃ e ∈ effs, (∃ dst, e = .multicast dst msg) ∨
      ∃ dst peer out, e = .unicast dst peer out ∧ msg = out.bytes own := by
  obtain ⟨hmem, hlen⟩ := mem_filter.1 h
  obtain ⟨e, he, hmsg⟩ := mem_filterMap.1 hmem
  refine ⟨of_decide_eq_true hlen, e, he, ?_⟩
  cases e <;> simp_all

namespace Participant

theorem sendTo_sends {locs : List ReaderLocator} {out : Outgoing}
    (h : msg ∈ sentBy own (sendTo locs out)) : msg = out.bytes own := by
  obtain ⟨-, e, he, hmsg⟩ := mem_sentBy h
  obtain ⟨dst, peer, rfl⟩ := mem_sendTo he
  simpa using hmsg

theorem sendHeartbeat_sends (h : msg ∈ sentBy own (p.sendHeartbeat w).2) :
    ∃ w' hb, w.heartbeat = some (w', hb) ∧ msg = (heartbeat hb).bytes own := by
  rw [sendHeartbeat_effects] at h
  cases hhb : w.heartbeat with
  | none =>
    rw [hhb] at h
    cases h
  | some r =>
    rw [hhb] at h
    exact ⟨r.1, r.2, rfl, sendTo_sends h⟩

theorem mem_sendSample {e : Effect} (h : e ∈ p.sendSample w payload msgs) :
    ∃ msg ∈ msgs, (∃ dst, e = .multicast dst msg) ∨
      ∃ dst peer, e = .unicast dst peer (.message msg) := by
  unfold sendSample at h
  dsimp only at h
  split_ifs at h
  · obtain ⟨m, hm, rfl⟩ := List.mem_map.1 h
    exact ⟨m, hm, .inl ⟨_, rfl⟩⟩
  · obtain ⟨lm, -, he⟩ := mem_flatMap.1 h
    split_ifs at he
    · cases he
    · split at he
      · cases he
      · obtain ⟨m, hm, rfl⟩ := List.mem_map.1 he
        exact ⟨m, hm, .inr ⟨_, _, rfl⟩⟩

theorem sendSample_sends (h : msg ∈ sentBy own (p.sendSample w payload msgs)) : msg ∈ msgs := by
  obtain ⟨-, e, he, hmsg⟩ := mem_sentBy h
  obtain ⟨m, hm, ⟨dst, rfl⟩ | ⟨dst, peer, rfl⟩⟩ := mem_sendSample he
  · simp_all
  · simp_all [bytes]

/-- A message that carries a sample of writer `eid` numbered at most `n`, or a fragment. -/
inductive IsSample (own : GuidPrefix) (eid : EntityId) (n : UInt64) : Bytes → Prop
  | data (sn : UInt64) (t : Int) (wire : Bytes) (h : sn ≤ n) :
      IsSample own eid n (dataMessage own eid (u64ToSN sn) t wire)
  | frag (t : Int) (f : DataFrag) : IsSample own eid n (dataFragMessage own t f)

theorem IsSample.mono {n n' : UInt64} (h : IsSample own eid n msg) (hle : n ≤ n') :
    IsSample own eid n' msg := by
  cases h with
  | data sn t wire hsn => exact .data sn t wire (UInt64.le_trans hsn hle)
  | frag t f => exact .frag t f

theorem messages_isSample {wire : Bytes} (h : w.messages own (u64ToSN sn) now wire = some msgs)
    (hmsg : msg ∈ msgs) : IsSample own w.eid sn msg := by
  unfold Writer.messages at h
  dsimp only at h
  split_ifs at h
  · obtain ⟨frags, -, rfl⟩ := map_eq_some_iff.1 h
    obtain ⟨f, -, rfl⟩ := List.mem_map.1 hmsg
    exact .frag now f
  · obtain rfl := Option.some.inj h
    rw [mem_singleton.1 hmsg]
    exact .data sn now wire (UInt64.le_refl sn)

theorem writeBy_sends {rnd : Bytes} (h : msg ∈ sentBy own (p.writeBy eid payload rnd now).2) :
    ∃ v wire msgs, p.writers.get? eid = some v ∧
      { v with seq := v.seq + 1 }.messages p.guidPrefix (u64ToSN (v.seq + 1)) now wire = some msgs ∧
      (p.writeBy eid payload rnd now).1.writers.get? eid =
        some ({ v with seq := v.seq + 1 }.keep msgs).announced ∧
      (msg ∈ msgs ∨ ∃ w' hb, ({ v with seq := v.seq + 1 }.keep msgs).heartbeat = some (w', hb) ∧
        msg = (heartbeat hb).bytes own) := by
  unfold writeBy at h ⊢
  cases hv : p.writers.get? eid with
  | none =>
    rw [hv] at h
    cases h
  | some v =>
    rw [hv] at h
    dsimp only at h ⊢
    have hveid : v.eid = eid := (get?_eq_some.1 hv).2
    rcases write_cases p v payload rnd now with ⟨e, he⟩ | ⟨e, he⟩ | ⟨wire, msgs, -, hmsgs, he⟩
    · rw [he] at h
      cases h
    · rw [he] at h
      cases h
    · refine ⟨v, wire, msgs, rfl, hmsgs, ?_, ?_⟩
      · rw [he]
        exact (get?_publish _ _ _ _ _ _).trans (if_pos hveid.symm)
      rw [he, publish_effects] at h
      unfold sentBy at h
      rw [filterMap_append, filterMap_append, filter_append, filter_append,
        mem_append, mem_append] at h
      rcases h with h | h | h
      · -- local delivery sends nothing
        obtain ⟨-, e, hd, hmsg⟩ := mem_sentBy h
        obtain ⟨r, -, ⟨queued, rfl⟩, -⟩ := dispatchToReaders_effects hd
        simp at hmsg
      · exact .inl (sendSample_sends h)
      · split_ifs at h
        · exact .inr (sendHeartbeat_sends h)
        · cases h

theorem heartbeatTick_sends (h : msg ∈ sentBy own (p.heartbeatTick eid).2) :
    ∃ v w' hb, p.writers.get? eid = some v ∧ v.heartbeat = some (w', hb) ∧
      msg = (heartbeat hb).bytes own := by
  unfold heartbeatTick at h
  cases hv : p.writers.get? eid with
  | none =>
    rw [hv] at h
    cases h
  | some v =>
    rw [hv] at h
    dsimp only at h
    split_ifs at h
    · cases h
    · obtain ⟨w', hb, hhb, hmsg⟩ := sendHeartbeat_sends h
      exact ⟨v, w', hb, rfl, hhb, hmsg⟩

theorem handleAckNack_sends {an : AckNack} (h : msg ∈ sentBy own (p.handleAckNack an src).2) :
    (∃ v sn, p.writers.get? an.writerEntityId = some v ∧ v.history.get sn = some msg) ∨
      ∃ g, msg = (gap g).bytes own := by
  obtain ⟨-, e, he, hmsg⟩ := mem_sentBy h
  obtain ⟨v, dst, peer, hv, ⟨sn, m, hm, rfl⟩ | ⟨g, -, rfl⟩⟩ := handleAckNack_effects he
  · exact .inl ⟨v, sn, hv, by simp_all [bytes]⟩
  · exact .inr ⟨g, by simpa using hmsg⟩

def IsAckBelow (own : GuidPrefix) (eid : EntityId) (n : UInt64) (msg : Bytes) : Prop :=
  ∃ an, msg = (Outgoing.ackNack an).bytes own ∧ an.writerEntityId = eid ∧ snToU64 an.base ≤ n

theorem isAckBelow_of_isAckNack {r : Reader} {rt : RecvTracker} {lastSN : UInt64} {e : Effect}
    (h : r.IsAckNack g rt lastSN e) (hmsg : (∃ dst, e = .multicast dst msg) ∨
      ∃ dst peer out, e = .unicast dst peer out ∧ msg = out.bytes own) :
    IsAckBelow own g.entity lastSN msg := by
  obtain ⟨addr, m, count, hm, hneed, rfl⟩ := h
  obtain ⟨-, hbase, hle⟩ := le_of_missing_needAck hm hneed
  obtain rfl : msg = _ := by simpa using hmsg
  refine ⟨_, rfl, rfl, ?_⟩
  rw [snToU64_u64ToSN, hbase]
  exact hle

theorem act_data_sends {ts : Int} (h : msg ∈ sentBy own (p.act ⟨.data g sn payload ts, src, now⟩).2) :
    IsAckBelow own g.entity sn msg := by
  obtain ⟨-, e, he, hmsg⟩ := mem_sentBy h
  rcases act_data_effects he with ⟨v, rfl⟩ | ⟨r, -, hack⟩ | ⟨eid, sample, queued, rfl⟩
  · simp at hmsg
  · exact isAckBelow_of_isAckNack hack hmsg
  · simp at hmsg

theorem act_heartbeat_sends {hb : Heartbeat}
    (h : msg ∈ sentBy own (p.act ⟨.heartbeat g hb, src, now⟩).2) :
    IsAckBelow own g.entity (snToU64 hb.lastSN) msg := by
  obtain ⟨-, e, he, hmsg⟩ := mem_sentBy h
  obtain ⟨r, -, hack⟩ := act_heartbeat_effects he
  exact isAckBelow_of_isAckNack hack hmsg

end Participant

/-! ## The invariant -/

/-- The watermark is below the last number, the drain channel open, and only own samples are
kept. -/
structure Writer.Stalled (own : GuidPrefix) (v : Writer) : Prop where
  low : v.acked < v.seq ∨ v.acked = 0 ∧ v.seq = 0
  opened : v.drainCh ≠ some .closed
  last : v.history.any = true → v.history.highest ≤ v.seq
  kept : ∀ k sn msg, v.history.ring k = some (sn, msg) →
    Participant.IsSample own v.eid v.seq msg

namespace Writer

theorem stalled_new (own : GuidPrefix) (cfg : WriterConfig) : (Writer.new cfg).Stalled own := by
  refine ⟨.inr ⟨rfl, rfl⟩, ?_, ?_, ?_⟩
  · cases h : cfg.reliable <;> simp [Writer.new, h]
  · intro h
    cases h
  · intro k sn msg h
    cases h

theorem Stalled.numbered (h : v.Stalled own) (hmax : v.seq ≠ maxSN) :
    Stalled own { v with seq := v.seq + 1 } := by
  have hsucc : v.seq < v.seq + 1 := lt_succ_of_ne_max hmax
  refine ⟨.inl ?_, h.opened, ?_, ?_⟩
  · rcases h.low with hlt | ⟨hacked, hseq⟩
    · exact UInt64.lt_of_lt_of_le hlt (UInt64.le_of_lt hsucc)
    · rw [hacked, ← hseq]
      exact hsucc
  · intro hany
    exact UInt64.le_trans (h.last hany) (UInt64.le_of_lt hsucc)
  · intro k sn msg hk
    exact (h.kept k sn msg hk).mono (UInt64.le_of_lt hsucc)

theorem Stalled.keep (h : v.Stalled own)
    (hmsgs : Participant.IsSample own v.eid v.seq (msgs.headD [])) : (v.keep msgs).Stalled own := by
  unfold Writer.keep
  split_ifs
  · refine ⟨h.low, h.opened, fun _ => ?_, fun k sn msg hk => ?_⟩
    · exact UInt64.le_of_eq (highest_store (msgs.headD []) h.last)
    · by_cases hslot : k = slot v.seq
      · simp only [store, hslot, Function.update_self, Option.some.injEq, Prod.mk.injEq] at hk
        rw [← hk.2]
        exact hmsgs
      · simp only [store, Function.update_of_ne hslot] at hk
        exact h.kept k sn msg hk
  · exact h

theorem Stalled.announced (h : v.Stalled own) : v.announced.Stalled own := by
  unfold Writer.announced Writer.heartbeat
  split_ifs
  · cases v.history.firstLast with
    | none => exact h
    | some fl => exact ⟨h.low, h.opened, h.last, h.kept⟩
  · exact h

theorem Stalled.advanceAcked (h : v.Stalled own) (hrel : v.reliable) {b : UInt64}
    (hb : b ≤ v.seq) : (v.advanceAcked b).Stalled own := by
  rcases advanceAcked_cases hrel h.low b with ⟨hch, hlow⟩ | ⟨hlt, -⟩
  · refine ⟨?_, ?_, ?_, ?_⟩
    · rw [advanceAcked_seq]
      exact hlow
    · rw [hch]
      exact h.opened
    · rw [advanceAcked_seq, advanceAcked_history]
      exact h.last
    · rw [advanceAcked_seq, advanceAcked_history, advanceAcked_config]
      exact h.kept
  · exact absurd hb (UInt64.not_le.2 hlt)

theorem Stalled.heartbeat {w' : Writer} {hb : Heartbeat} (h : v.Stalled own)
    (hhb : v.heartbeat = some (w', hb)) :
    hb.writerEntityId = v.eid ∧ snToU64 hb.lastSN ≤ v.seq := by
  unfold Writer.heartbeat SendHistory.firstLast at hhb
  split_ifs at hhb with hany
  · cases hhb
    refine ⟨rfl, ?_⟩
    rw [snToU64_u64ToSN]
    exact h.last hany
  · cases hhb

theorem Stalled.get (h : v.Stalled own) (hget : v.history.get sn = some msg) :
    Participant.IsSample own v.eid v.seq msg :=
  h.kept _ _ _ (get_eq_some.1 hget).2.2.2

theorem Stalled.keepMessages {wire : Bytes} (h : v.Stalled own) (hmax : v.seq ≠ maxSN)
    (hmsgs : { v with seq := v.seq + 1 }.messages own (u64ToSN (v.seq + 1)) now wire = some msgs) :
    ({ v with seq := v.seq + 1 }.keep msgs).Stalled own := by
  have hhead : msgs.headD [] ∈ msgs := by
    cases hm : msgs with
    | nil => exact absurd hm (messages_ne_nil hmsgs)
    | cons m rest => exact mem_cons_self
  exact (h.numbered hmax).keep (Participant.messages_isSample hmsgs hhead)

theorem Stalled.move {cfg : ParticipantConfig} {v' : Writer} {op : Participant.Op}
    (h : v.Stalled cfg.guidPrefix)
    (hmax : ∀ payload rnd now, op = .write v.eid payload rnd now → v.seq ≠ maxSN)
    (hack : ∀ g an src now, op = .act ⟨.ackNack g an, src, now⟩ → an.writerEntityId = v.eid →
      snToU64 an.base ≤ v.seq) (hmove : Participant.WriterMove cfg v op v') :
    v'.Stalled cfg.guidPrefix ∧ v'.eid = v.eid ∧ (v'.seq = v.seq ∨
      v'.seq = v.seq + 1 ∧ ∃ payload rnd now, op = .write v.eid payload rnd now) := by
  cases hmove with
  | same hv' =>
    subst hv'
    exact ⟨h, rfl, .inl rfl⟩
  | announced hv' =>
    subst hv'
    have hsame := v.sameDrain_announced
    exact ⟨h.announced, congrArg WriterConfig.eid hsame.cfg, .inl hsame.seq⟩
  | numbered payload rnd now hop hv' =>
    subst hv'
    exact ⟨h.numbered (hmax payload rnd now hop), rfl, .inr ⟨rfl, payload, rnd, now, hop⟩⟩
  | published payload rnd now wire msgs hop hmsgs hv' =>
    have hkeep := sameDrain_keep { v with seq := v.seq + 1 } msgs
    have hann := sameDrain_announced ({ v with seq := v.seq + 1 }.keep msgs)
    rw [← hv'] at hann
    refine ⟨?_, by rw [hann.cfg, hkeep.cfg],
      .inr ⟨by rw [hann.seq, hkeep.seq], payload, rnd, now, hop⟩⟩
    rw [hv']
    exact (h.keepMessages (hmax payload rnd now hop) hmsgs).announced
  | acknowledged g an src now hop hw hrel hv' =>
    subst hv'
    refine ⟨h.advanceAcked hrel (hack g an src now hop hw), ?_, .inl (advanceAcked_seq _ _)⟩
    rw [advanceAcked_config]

end Writer

namespace Participant

theorem length_dataMessage (own : GuidPrefix) (eid : EntityId) (sn : SequenceNumber) (t : Int)
    (wire : Bytes) : (dataMessage own eid sn t wire).length = wire.length + 60 := by
  simp [dataMessage, wrapInRTPSMessage, marshalInfoTS, marshalDataSubmessage, frame,
    length_dataBody, length_cdrWrapPayload]
  omega

theorem length_dataFragMessage (own : GuidPrefix) (t : Int) (f : DataFrag) :
    (dataFragMessage own t f).length = f.payload.length + 68 := by
  simp [dataFragMessage, wrapInRTPSMessage, marshalInfoTS, marshalDataFrag, frame,
    length_dataFragBody]
  omega

/-- A message of writer `eid` that speaks of no number above `n`. -/
inductive Speaks (own : GuidPrefix) (eid : EntityId) (n : UInt64) : Bytes → Prop
  | sample (msg : Bytes) (h : IsSample own eid n msg) : Speaks own eid n msg
  | heartbeat (hb : Heartbeat) (heid : hb.writerEntityId = eid) (h : snToU64 hb.lastSN ≤ n) :
      Speaks own eid n ((Outgoing.heartbeat hb).bytes own)
  | gap (g : Gap) : Speaks own eid n ((Outgoing.gap g).bytes own)

theorem IsAckBelow.mono {n n' : UInt64} (h : IsAckBelow own eid n msg) (hle : n ≤ n') :
    IsAckBelow own eid n' msg := by
  obtain ⟨an, hmsg, heid, hbase⟩ := h
  exact ⟨an, hmsg, heid, UInt64.le_trans hbase hle⟩

theorem speaks_answer {sender : GuidPrefix} {n : UInt64} (hne : sender ≠ p.guidPrefix)
    (hlen : msg.length ≤ maxDatagram) (h : Speaks sender eid n msg) (src : Option UDPAddr)
    (now : Int) {answer : Bytes}
    (ha : answer ∈ sentBy p.guidPrefix (p.handleDataPacket ⟨msg, src, now⟩).2) :
    IsAckBelow p.guidPrefix eid n answer := by
  rw [handleDataPacket_eq_run] at ha
  cases h with
  | sample msg h =>
    cases h with
    | data sn t wire hsn =>
      rw [length_dataMessage] at hlen
      have hfit : wire.length + 24 < 65536 := by
        unfold maxDatagram at hlen
        omega
      rw [inputsOf_data hne _ _ _ hfit] at ha
      cases hopen : openPayload p.config wire with
      | none =>
        rw [hopen] at ha
        cases ha
      | some payload =>
        rw [hopen, map_some, toList_some, Run.run_singleton] at ha
        have hack := act_data_sends ha
        rw [snToU64_u64ToSN] at hack
        exact hack.mono hsn
    | frag t f =>
      rw [length_dataFragMessage] at hlen
      have hfit : f.payload.length + 32 < 65536 := by
        unfold maxDatagram at hlen
        omega
      rw [inputsOf_dataFrag hne _ hfit] at ha
      cases ha
  | heartbeat hb heid hlast =>
    rw [inputsOf_heartbeat hne, Run.run_singleton] at ha
    have hack := (act_heartbeat_sends ha).mono hlast
    rwa [heid] at hack
  | gap g =>
    rw [inputsOf_gap hne] at ha
    cases ha

end Participant

/-! ## Runs of the link -/

namespace Participant

def Below (p : Participant) (eid : EntityId) (n : UInt64) : Prop :=
  ∀ v, p.writers.get? eid = some v → n ≤ v.seq

def AllStalled (p : Participant) (n : Nat) : Prop :=
  ∀ v, p.writers.get? v.eid = some v → v.Stalled p.guidPrefix ∧ v.seq.toNat ≤ n

/-- What the sender of a link may do: only a write gives out a number, and no acknowledgement is
above the last. -/
def Op.Stalls (p : Participant) (n n' : Nat) : Op → Prop
  | .write _ _ _ _ => n' = n + 1 ∧ n' < 2 ^ 64
  | .heartbeatTick _ => n' = n
  | .act ⟨a, _, _⟩ => n' = n ∧ ∃ g an, a = .ackNack g an ∧
      p.Below an.writerEntityId (snToU64 an.base)

theorem perform_stalled (h : p.AllStalled n) (hop : op.Stalls p n n') {v' : Writer}
    (hv' : (p.perform op).1.writers.get? v'.eid = some v') :
    v'.Stalled p.guidPrefix ∧ v'.seq.toNat ≤ n' ∧
      ∃ v, p.writers.get? v'.eid = some v ∧ v.seq ≤ v'.seq := by
  cases hv : p.writers.get? v'.eid with
  | none =>
    rw [perform_writer_none hv op] at hv'
    cases hv'
  | some v =>
    have hveid : v.eid = v'.eid := (get?_eq_some.1 hv).2
    rw [← hveid] at hv
    obtain ⟨hst, hle⟩ := h v hv
    obtain ⟨u, hu, hmove⟩ := perform_writer hv op
    rw [hveid] at hu
    obtain rfl := Option.some.inj (hu.symm.trans hv')
    have hmax : ∀ payload rnd now, op = .write v.eid payload rnd now →
        v.seq ≠ maxSN := by
      intro payload rnd now heq hmax
      subst heq
      obtain ⟨rfl, hlt⟩ := hop
      rw [hmax] at hle
      change 2 ^ 64 - 1 ≤ n at hle
      omega
    have hack : ∀ g an src now, op = .act ⟨.ackNack g an, src, now⟩ →
        an.writerEntityId = v.eid → snToU64 an.base ≤ v.seq := by
      intro g an src now heq heid
      subst heq
      obtain ⟨-, g', an', ha, hbelow⟩ := hop
      cases ha
      exact hbelow v (heid ▸ hv)
    obtain ⟨hst', -, hseq⟩ := hst.move hmax hack hmove
    refine ⟨hst', ?_, v, rfl, ?_⟩
    · rcases hseq with hseq | ⟨hseq, payload, rnd, now, heq⟩
      · rw [hseq]
        cases op with
        | write e payload rnd now =>
          obtain ⟨rfl, -⟩ := hop
          omega
        | heartbeatTick e =>
          obtain rfl := hop
          exact hle
        | act i =>
          obtain ⟨rfl, -⟩ := hop
          exact hle
      · subst heq
        obtain ⟨rfl, hlt⟩ := hop
        have hsucc : (v.seq + 1).toNat = (v.seq.toNat + 1) % 2 ^ 64 := UInt64.toNat_add _ _
        rw [hseq, hsucc]
        omega
    · rcases hseq with hseq | ⟨hseq, payload, rnd, now, heq⟩
      · rw [hseq]
        exact UInt64.le_refl _
      · rw [hseq]
        exact UInt64.le_of_lt (lt_succ_of_ne_max (hmax payload rnd now heq))

theorem below_perform (h : p.AllStalled n) (hop : op.Stalls p n n') {k : UInt64}
    (hk : p.Below eid k) : (p.perform op).1.Below eid k := by
  intro v' hv'
  obtain rfl : v'.eid = eid := (get?_eq_some.1 hv').2
  obtain ⟨-, -, v, hv, hle⟩ := perform_stalled h hop hv'
  exact UInt64.le_trans (hk v hv) hle

theorem below_seq (hv : p.writers.get? eid = some v) : p.Below eid v.seq := by
  intro v' hv'
  obtain rfl := Option.some.inj (hv.symm.trans hv')
  exact UInt64.le_refl _

theorem perform_speaks (h : p.AllStalled n) (hop : op.Stalls p n n')
    (hmsg : msg ∈ sentBy p.guidPrefix (p.perform op).2) :
    ∃ eid k, (p.perform op).1.Below eid k ∧ Speaks p.guidPrefix eid k msg := by
  cases op with
  | write eid payload rnd now =>
    obtain ⟨v, wire, msgs, hv, hmsgs, hafter, hsent⟩ := writeBy_sends hmsg
    obtain rfl : v.eid = eid := (get?_eq_some.1 hv).2
    obtain ⟨hst, hle⟩ := h v hv
    have hmax : v.seq ≠ maxSN := by
      intro hmax
      obtain ⟨rfl, hlt⟩ := hop
      rw [hmax] at hle
      change 2 ^ 64 - 1 ≤ n at hle
      omega
    have hkeep := Writer.sameDrain_keep { v with seq := v.seq + 1 } msgs
    have hann := Writer.sameDrain_announced ({ v with seq := v.seq + 1 }.keep msgs)
    have hbelow := below_seq hafter
    rw [hann.seq, hkeep.seq] at hbelow
    refine ⟨v.eid, v.seq + 1, hbelow, ?_⟩
    rcases hsent with hm | ⟨w', hb, hhb, rfl⟩
    · exact .sample msg (messages_isSample hmsgs hm)
    · obtain ⟨heid, hlast⟩ := (hst.keepMessages hmax hmsgs).heartbeat hhb
      rw [hkeep.cfg] at heid
      rw [hkeep.seq] at hlast
      exact .heartbeat hb heid hlast
  | heartbeatTick eid =>
    obtain ⟨v, w', hb, hv, hhb, rfl⟩ := heartbeatTick_sends hmsg
    obtain rfl : v.eid = eid := (get?_eq_some.1 hv).2
    obtain ⟨heid, hlast⟩ := (h v hv).1.heartbeat hhb
    exact ⟨v.eid, v.seq, below_perform h hop (below_seq hv), .heartbeat hb heid hlast⟩
  | act i =>
    obtain ⟨a, src, now⟩ := i
    have hop' := hop
    obtain ⟨-, g, an, rfl, -⟩ := hop'
    change msg ∈ sentBy p.guidPrefix (p.act ⟨.ackNack g an, src, now⟩).2 at hmsg
    cases hstuck : p.stuck with
    | true =>
      rw [act_of_stuck hstuck] at hmsg
      cases hmsg
    | false =>
      rw [act_ackNack hstuck] at hmsg
      rcases handleAckNack_sends hmsg with ⟨v, sn, hv, hget⟩ | ⟨gap, rfl⟩
      · obtain heid : v.eid = an.writerEntityId := (get?_eq_some.1 hv).2
        rw [← heid] at hv
        exact ⟨v.eid, v.seq, below_perform h hop (below_seq hv), .sample msg ((h v hv).1.get hget)⟩
      · refine ⟨an.writerEntityId, 0, ?_, .gap gap⟩
        intro v hv
        exact UInt64.zero_le

end Participant

namespace Link

open Participant FixedBytes

/-- Nothing on the link speaks of a number not given out, every writer is stalled, and has given out
`n` at most. -/
structure Stalls (l : Link) (n : Nat) : Prop where
  prefixes : l.sender.guidPrefix ≠ l.receiver.guidPrefix
  writers : l.sender.AllStalled n
  toReceiver : ∀ msg ∈ l.toReceiver, msg.length ≤ maxDatagram ∧
    ∃ eid k, l.sender.Below eid k ∧ Speaks l.sender.guidPrefix eid k msg
  toSender : ∀ msg ∈ l.toSender,
    ∃ eid k, l.sender.Below eid k ∧ IsAckBelow l.receiver.guidPrefix eid k msg

theorem stalls_afterSender (op : Op) (h : Stalls l n) (hop : op.Stalls l.sender n n') :
    Stalls (l.afterSender (l.sender.perform op)).1 n' := by
  have hcfg : (l.sender.perform op).1.guidPrefix = l.sender.guidPrefix :=
    congrArg ParticipantConfig.guidPrefix (config_perform l.sender op)
  refine ⟨?_, ?_, ?_, ?_⟩
  · show (l.sender.perform op).1.guidPrefix ≠ l.receiver.guidPrefix
    rw [hcfg]
    exact h.prefixes
  · intro v hv
    obtain ⟨hst, hle, -⟩ := perform_stalled h.writers hop hv
    show v.Stalled (l.sender.perform op).1.guidPrefix ∧ _
    rw [hcfg]
    exact ⟨hst, hle⟩
  · intro msg hmsg
    show _ ∧ ∃ eid k, (l.sender.perform op).1.Below eid k ∧
      Speaks (l.sender.perform op).1.guidPrefix eid k msg
    rw [hcfg]
    rcases mem_append.1 hmsg with hmsg | hmsg
    · obtain ⟨hlen, eid, k, hk, hsp⟩ := h.toReceiver msg hmsg
      exact ⟨hlen, eid, k, below_perform h.writers hop hk, hsp⟩
    · exact ⟨(mem_sentBy hmsg).1, perform_speaks h.writers hop hmsg⟩
  · intro msg hmsg
    obtain ⟨eid, k, hk, hack⟩ := h.toSender msg hmsg
    exact ⟨eid, k, below_perform h.writers hop hk, hack⟩

theorem stalls_step (h : Stalls l n) (ev : LinkEvent)
    (hn : n + (if ev.isWrite then 1 else 0) < 2 ^ 64) :
    Stalls (l.step ev).1 (n + if ev.isWrite then 1 else 0) := by
  cases ev with
  | write eid payload rnd now =>
    exact stalls_afterSender (.write eid payload rnd now) h ⟨rfl, hn⟩
  | heartbeatTick eid => exact stalls_afterSender (.heartbeatTick eid) h rfl
  | deliverToReceiver now =>
    unfold step
    cases hq : l.toReceiver with
    | nil => exact h
    | cons msg rest =>
      have hmem : ∀ m ∈ rest, m ∈ l.toReceiver := by
        intro m hm
        rw [hq]
        exact mem_cons_of_mem _ hm
      obtain ⟨hlen, eid, k, hk, hsp⟩ := h.toReceiver msg (by rw [hq]; exact mem_cons_self)
      have hcfg : (l.receiver.handleDataPacket ⟨msg, some l.senderAddr, now⟩).1.guidPrefix =
          l.receiver.guidPrefix := by
        rw [handleDataPacket_eq_run, config_run_act]
      refine ⟨?_, h.writers, fun m hm => h.toReceiver m (hmem m hm), ?_⟩
      · show l.sender.guidPrefix ≠ _
        exact hcfg ▸ h.prefixes
      · intro m hm
        show ∃ eid k, l.sender.Below eid k ∧ IsAckBelow
          (l.receiver.handleDataPacket ⟨msg, some l.senderAddr, now⟩).1.guidPrefix eid k m
        rw [hcfg]
        rcases mem_append.1 hm with hm | hm
        · exact h.toSender m hm
        · exact ⟨eid, k, hk, speaks_answer h.prefixes hlen hsp _ _ hm⟩
  | deliverToSender now =>
    unfold step
    cases hq : l.toSender with
    | nil => exact h
    | cons msg rest =>
      have hmem : ∀ m ∈ rest, m ∈ l.toSender := by
        intro m hm
        rw [hq]
        exact mem_cons_of_mem _ hm
      obtain ⟨eid, k, hk, an, rfl, heid, hbase⟩ :=
        h.toSender msg (by rw [hq]; exact mem_cons_self)
      have hrest : Stalls { l with toSender := rest } n :=
        ⟨h.prefixes, h.writers, h.toReceiver, fun m hm => h.toSender m (hmem m hm)⟩
      have hpkt := handleDataPacket_eq_run l.sender
        ⟨(Outgoing.ackNack an).bytes l.receiver.guidPrefix, some l.receiverAddr, now⟩
      rw [inputsOf_ackNack (Ne.symm h.prefixes), Run.run_singleton] at hpkt
      dsimp only
      rw [hpkt]
      refine stalls_afterSender (.act ⟨.ackNack ⟨l.receiver.guidPrefix, an.readerEntityId⟩ an,
        some l.receiverAddr, now⟩) hrest ⟨rfl, _, an, rfl, ?_⟩
      intro v hv
      exact UInt64.le_trans hbase (hk v (heid ▸ hv))

open LinkEvent

theorem stalls_run (h : Stalls l 0) (evs : List LinkEvent) (hcount : evs.countP isWrite < 2 ^ 64) :
    Stalls (Run.run step l evs).1 (evs.countP isWrite) := by
  refine Run.run_induction_always
    (J := fun l' done _ => done.countP isWrite < 2 ^ 64 →
      Stalls l' (done.countP isWrite))
    (fun l' ev done _ hJ hlt => ?_) (fun _ => h) evs hcount
  have hadd : (done ++ [ev]).countP isWrite =
      done.countP isWrite + if ev.isWrite then 1 else 0 := by
    rw [countP_append, countP_singleton]
  rw [hadd] at hlt ⊢
  exact stalls_step (hJ (by omega)) ev hlt

/-- Whatever is written and delivered, in whatever order, the watermark of a writer that has written
anything stays below its last number, and `waitDrain` does not return. -/
theorem waitDrain_stalls (l : Link) (evs : List LinkEvent)
    (hpfx : l.sender.guidPrefix ≠ l.receiver.guidPrefix)
    (hnew : ∀ v ∈ l.sender.writers.items, ∃ cfg, v = Writer.new cfg)
    (hempty : l.toReceiver = [] ∧ l.toSender = [])
    (hcount : evs.countP LinkEvent.isWrite < 2 ^ 64) {eid : EntityId} {v : Writer}
    (hv : (Run.run step l evs).1.sender.writers.get? eid = some v) (hrel : v.reliable = true)
    (hwritten : v.seq ≠ 0) : v.acked ≠ v.seq ∧ v.waitDrain v = false := by
  have hinit : Stalls l 0 := by
    refine ⟨hpfx, ?_, ?_, ?_⟩
    · intro v hv
      obtain ⟨cfg, rfl⟩ := hnew v (get?_eq_some.1 hv).1
      exact ⟨Writer.stalled_new _ cfg, Nat.le_refl 0⟩
    · rw [hempty.1]
      exact fun msg hmsg => absurd hmsg not_mem_nil
    · rw [hempty.2]
      exact fun msg hmsg => absurd hmsg not_mem_nil
  obtain rfl : v.eid = eid := (get?_eq_some.1 hv).2
  obtain ⟨hst, -⟩ := (stalls_run hinit evs hcount).writers v hv
  have hlt : v.acked < v.seq := by
    rcases hst.low with hlt | ⟨-, hzero⟩
    · exact hlt
    · exact absurd hzero hwritten
  refine ⟨UInt64.ne_of_lt hlt, ?_⟩
  obtain ⟨c, hc⟩ := Writer.isSome_drainCh hrel
  have hopen := hst.opened
  simp only [Writer.waitDrain, Bool.or_eq_false_iff, decide_eq_false_iff_not]
  refine ⟨⟨?_, UInt64.not_le.2 hlt⟩, hopen⟩
  rw [hc]
  exact some_ne_none c

def oneReader (own peer : GuidPrefix) : Link :=
  let q : GUID := ⟨peer, entityIdForReader 1⟩
  let base := publishingTo own q q
  { sender :=
      { base with
        sedp := { base.sedp with
          remoteReaderLocs :=
            Table.empty.set q ⟨locatorKindUDPv4, 7411, copy 16 []⟩ } }
    receiver := subscribedTo peer ⟨own, reliableWriter.eid⟩
    senderAddr := ⟨[127, 0, 0, 1], 7411⟩
    receiverAddr := ⟨[127, 0, 0, 2], 7411⟩
    toReceiver := []
    toSender := [] }

theorem waitDrain_stalls_two :
    let l := oneReader (copy 12 [1]) (copy 12 [2])
    let write : LinkEvent := .write reliableWriter.eid [7] [] 0
    let evs := [write, .deliverToReceiver 0, .deliverToReceiver 0, write, .deliverToReceiver 0,
      .deliverToReceiver 0, .deliverToSender 0]
    ∃ v, (Run.run step l evs).1.sender.writers.get? reliableWriter.eid = some v ∧
      v.acked ≠ v.seq ∧ v.waitDrain v = false := by
  intro l write evs
  have hsome : ((Run.run step l evs).1.sender.writers.get?
      reliableWriter.eid).isSome = true := by decide +kernel
  refine ⟨_, (some_get hsome).symm, ?_⟩
  refine waitDrain_stalls l evs (by decide)
    (fun v hv => ⟨reliableWriter, mem_singleton.1 hv⟩) ⟨rfl, rfl⟩ (by decide)
    (some_get hsome).symm ?_ ?_
  all_goals decide +kernel +revert

/-- The sample and its heartbeat are delivered, both queues are empty, and the watermark is still
0. -/
theorem waitDrain_never_returns :
    let own : GuidPrefix := copy 12 [1]
    let l := oneReader own (copy 12 [2])
    let evs : List LinkEvent := [.write reliableWriter.eid [7] [] 0,
      .deliverToReceiver 0, .deliverToReceiver 0, .heartbeatTick reliableWriter.eid,
      .deliverToReceiver 0, .deliverToSender 0]
    let r := Run.run step l evs
    r.1.toReceiver = [] ∧ r.1.toSender = [] ∧
      deliveries (entityIdForReader 1) ⟨own, reliableWriter.eid⟩ 1 r.2 = 1 ∧
      (r.1.sender.writers.get? reliableWriter.eid).any
        (fun v => v.seq = 1 && v.acked = 0 && !v.waitDrain v) = true := by decide +kernel

end Link

end GoDDS
