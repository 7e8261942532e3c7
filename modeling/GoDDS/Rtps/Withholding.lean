import GoDDS.Rtps.Addressing
import GoDDS.Rtps.Numbering

/-!
# Content filters at the writer

A sample is sent to an address only if one of the matched readers there wants it. A retransmission
goes to all matched addresses.
-/

namespace GoDDS

open ByteCodec Go Security Option Registry FixedBytes List SendHistory
open List hiding not_le

variable {an : AckNack} {msg payload : Bytes} {peer : GuidPrefix} {now : Int} {p : Participant}
  {s : Participant × Log} {dst : UDPAddr} {n : UInt64} {w : Writer}

namespace Participant

/-- The writer and number of the sample a message carries, at one place in DATA and DATA_FRAG. -/
def sampleOf (msg : Bytes) : EntityId × UInt64 :=
  (FixedBytes.copy 4 (slice msg 44 48), snToU64 (snAt msg 48))

theorem sampleOf_frame (own : GuidPrefix) (t : Int) (id flags : UInt8) (body : Bytes) :
    sampleOf (wrapInRTPSMessage own (marshalInfoTS t ++ frame id flags body)) =
      (copy 4 (slice body 8 12), snToU64 (snAt body 12)) := by
  let head := marshalHeader (wrapHeader own) ++ (marshalInfoTS t ++
    ([id, flags] ++ u16 (UInt16.ofNat body.length)))
  have hmsg : wrapInRTPSMessage own (marshalInfoTS t ++ frame id flags body) = head ++ body := by
    simp [wrapInRTPSMessage, frame, head]
  have hlen : head.length = 36 := by
    simp [head, marshalInfoTS, frame]
  rw [sampleOf, hmsg, slice_skip (by omega), snAt_skip (by omega), hlen]

theorem sampleOf_dataMessage (own : GuidPrefix) (eid : EntityId) (sn : SequenceNumber) (t : Int)
    (wire : Bytes) : sampleOf (dataMessage own eid sn t wire) = (eid, snToU64 sn) := by
  rw [dataMessage, marshalDataSubmessage, sampleOf_frame]
  simp [dataBody, slice_skip, slice_here, snAt_skip]

theorem sampleOf_dataFragMessage (own : GuidPrefix) (t : Int) (f : DataFrag) :
    sampleOf (dataFragMessage own t f) = (f.writerEntityId, snToU64 f.writerSeqNum) := by
  rw [dataFragMessage, marshalDataFrag, sampleOf_frame]
  simp [dataFragBody, slice_skip, slice_here, snAt_skip]

theorem sampleOf_messages {own : GuidPrefix} {wire : Bytes} {msgs : List Bytes}
    (h : w.messages own (u64ToSN n) now wire = some msgs) (hmsg : msg ∈ msgs) :
    sampleOf msg = (w.eid, n) := by
  unfold Writer.messages at h
  dsimp only at h
  split_ifs at h
  · obtain ⟨frags, hfrags, rfl⟩ := map_eq_some_iff.1 h
    obtain ⟨f, hf, rfl⟩ := mem_map.1 hmsg
    have hsize : UInt16.ofNat w.fragmentSize.toNat ≠ 0 := by
      intro hzero
      simp [splitIntoFragmentsN, not_le.2 w.fragmentSize_pos, hzero] at hfrags
    rw [splitIntoFragmentsN_eq w.fragmentSize_pos hsize] at hfrags
    rw [← some.inj hfrags] at hf
    obtain ⟨k, -, rfl⟩ := mem_map.1 hf
    rw [sampleOf_dataFragMessage, fragmentOf, snToU64_u64ToSN]
  · rw [← some.inj h] at hmsg
    rw [mem_singleton.1 hmsg, sampleOf_dataMessage, snToU64_u64ToSN]

/-! ## The log -/

abbrev Log := EntityId → UInt64 → Option Bytes

def logged (p : Participant) (log : Log) : Turn → Log
  | .call (.write eid payload rnd now) =>
    match p.published eid (.call (.write eid payload rnd now)) with
    | none => log
    | some n => Function.update log eid (Function.update (log eid) n (some payload))
  | _ => log

def track (s : Participant × Log) (t : Turn) : (Participant × Log) × List Effect :=
  (((s.1.turn t).1, logged s.1 s.2 t), (s.1.turn t).2)

theorem logged_isSome {log : Log} {eid : EntityId} (h : (log eid n).isSome) (t : Turn) :
    (logged p log t eid n).isSome := by
  unfold logged
  split
  · next e payload rnd now =>
    cases p.published e (.call (.write e payload rnd now)) with
    | none => exact h
    | some m =>
      by_cases he : eid = e
      · subst he
        by_cases hm : n = m
        · simp [hm]
        · simpa [hm] using h
      · simpa [he] using h
  · exact h

theorem logged_published {log : Log} {eid : EntityId} {rnd : Bytes}
    (h : p.published eid (.call (.write eid payload rnd now)) = some n) :
    logged p log (.call (.write eid payload rnd now)) eid n = some payload := by
  simp only [logged, h, Function.update_self]

/-- The messages a writer keeps carry its samples, and the log knows them. -/
def Kept (s : Participant × Log) : Prop :=
  ∀ eid c, recordOf eid s.1 = some c → ∀ i n msg, c.2.2 i = some (n, msg) →
    sampleOf msg = (eid, n) ∧ (s.2 eid n).isSome = true

theorem kept_new (cfg : ParticipantConfig) (antiReplay : Option ReplayGuard) :
    Kept (Participant.new cfg antiReplay, fun _ _ => none) := by
  intro eid c hc
  cases hc

theorem ring_keep {msgs : List Bytes} {i : Fin 256}
    (h : (w.keep msgs).history.ring i = some (n, msg)) :
    w.history.ring i = some (n, msg) ∨ n = w.seq ∧ msg = msgs.headD [] := by
  unfold Writer.keep at h
  split_ifs at h
  · change Function.update w.history.ring (slot w.seq) _ i = _ at h
    by_cases hi : i = slot w.seq
    · rw [hi, Function.update_self] at h
      obtain ⟨rfl, rfl⟩ := Prod.mk.inj (some.inj h)
      exact .inr ⟨rfl, rfl⟩
    · rw [Function.update_of_ne hi] at h
      exact .inl h
  · exact .inl h

theorem headD_mem {α : Type*} {l : List α} (h : l ≠ []) (d : α) : l.headD d ∈ l := by
  cases l with
  | nil => exact absurd rfl h
  | cons x xs => exact mem_cons_self

theorem kept_track (h : Kept s) (t : Turn) : Kept (track s t).1 := by
  obtain ⟨p, log⟩ := s
  intro eid c hc i n msg hring
  change recordOf eid (p.turn t).1 = some c at hc
  change _ ∧ (logged p log t eid n).isSome
  by_cases hwrite : ∃ payload rnd now, t = .call (.write eid payload rnd now)
  swap
  · have hother : ∀ payload rnd now, t ≠ .call (.write eid payload rnd now) :=
      fun payload rnd now ht => hwrite ⟨payload, rnd, now, ht⟩
    rcases p.recordOf_turn hother with hsame | ⟨-, w, hnew⟩
    · obtain ⟨hsample, hlog⟩ := h eid c (hsame.symm.trans hc) i n msg hring
      exact ⟨hsample, logged_isSome hlog t⟩
    · rw [hnew] at hc
      obtain rfl := some.inj hc
      cases hring
  obtain ⟨payload, rnd, now, rfl⟩ := hwrite
  cases hget : p.writers.get? eid with
  | none =>
    have hnone := perform_writer_none hget (.write eid payload rnd now)
    change recordOf eid (p.perform (.write eid payload rnd now)).1 = some c at hc
    rw [recordOf, hnone] at hc
    cases hc
  | some w =>
    obtain rfl : w.eid = eid := (get?_eq_some.1 hget).2
    have hold : ∀ {i n msg}, w.history.ring i = some (n, msg) →
        sampleOf msg = (w.eid, n) ∧
          (logged p log (.call (.write w.eid payload rnd now)) w.eid n).isSome := by
      intro i n msg hi
      obtain ⟨hsample, hlog⟩ := h w.eid (record w) (recordOf_of_get? hget rfl).symm i n msg hi
      exact ⟨hsample, logged_isSome hlog _⟩
    obtain ⟨w', hw', hmove⟩ := record_write hget payload rnd now
    change recordOf w.eid (p.writeBy w.eid payload rnd now).1 = some c at hc
    rw [← recordOf_of_get? hw' rfl] at hc
    obtain rfl := some.inj hc
    cases hmove with
    | same hrec =>
      rw [hrec] at hring
      exact hold hring
    | wasted hrec =>
      rw [hrec] at hring
      exact hold hring
    | published ht hwire hmsgs hrec hsome =>
      rw [hrec] at hring
      rcases ring_keep hring with hring | ⟨rfl, rfl⟩
      · exact hold hring
      · have hmem := headD_mem (Writer.messages_ne_nil hmsgs) []
        exact ⟨sampleOf_messages hmsgs hmem, by rw [logged_published hsome]; rfl⟩

def Wanted (p : Participant) (w : WriterConfig) (dst : UDPAddr) (payload : Bytes) : Prop :=
  ∃ x ∈ p.matchedReaders w.topic w.qos.partition, x.2.udpAddr = some dst ∧
    evalContentFilter x.1.contentFilter payload = true

def WantedEverywhere (p : Participant) (w : WriterConfig) (payload : Bytes) : Prop :=
  ∀ x ∈ p.matchedReaders w.topic w.qos.partition, ∀ dst ∈ x.2.udpAddr, p.Wanted w dst payload

theorem wanted_of_passes {w : WriterConfig} {rl : ReaderLocator}
    (hrl : rl ∈ p.matchedReaderLocators w.topic w.qos.partition) (hpass : rl.passes payload = true)
    (hdst : rl.loc.udpAddr = some dst) : p.Wanted w dst payload := by
  obtain ⟨ri, hri, hwants⟩ :=
    ((p.summary_matchedReaderLocators w.topic w.qos.partition).passes rl hrl payload).1 hpass
  exact ⟨(ri, rl.loc), hri, hdst, hwants⟩

theorem wantedEverywhere_of_multicast
    (h : p.useMulticast w (p.matchedReaderLocators w.topic w.qos.partition) = true)
    (payload : Bytes) : p.WantedEverywhere w.config payload := by
  intro x hx dst hdst
  obtain ⟨rl, hrl, hloc⟩ :=
    (p.summary_matchedReaderLocators w.topic w.qos.partition).complete x hx
  have hempty : rl.contentFilters.isEmpty := by
    simp only [useMulticast, Bool.and_eq_true, List.all_eq_true] at h
    exact (h.2 rl hrl).2
  refine wanted_of_passes hrl ?_ (by rw [hloc]; exact hdst)
  rw [ReaderLocator.passes, hempty, Bool.true_or]

/-! ## Samples that are sent -/

/-- Samples are sent in writes and actions of packets. All other messages are announcements. -/
def SendsSamples : Turn → Prop
  | .call (.write ..) | .act _ => True
  | _ => False

/-- Every sample sent in the turn is known to the log and wanted where it is sent, with multicast at
every matched address. -/
structure Withholds (s : Participant × Log) (t : Turn) : Prop where
  unicast : SendsSamples t → ∀ dst peer msg, .unicast dst peer (.message msg) ∈ (s.1.turn t).2 →
    ∃ w payload, s.1.writers.get? (sampleOf msg).1 = some w ∧
      logged s.1 s.2 t (sampleOf msg).1 (sampleOf msg).2 = some payload ∧
      s.1.Wanted w.config dst payload
  multicast : SendsSamples t → ∀ group msg, .multicast group msg ∈ (s.1.turn t).2 →
    ∃ w payload, s.1.writers.get? (sampleOf msg).1 = some w ∧
      logged s.1 s.2 t (sampleOf msg).1 (sampleOf msg).2 = some payload ∧
      s.1.WantedEverywhere w.config payload

/-- A negative acknowledgement asks only for kept samples that are wanted everywhere. -/
def AsksWanted (s : Participant × Log) : Turn → Prop
  | .act ⟨.ackNack _ an, _, _⟩ =>
    s.1.stuck = false → ∀ w ∈ s.1.writers.get? an.writerEntityId, w.reliable = true →
      ∀ bit < 32, an.bitmap.toNat.testBit bit = true →
        (w.history.get (snToU64 an.base + UInt64.ofNat bit)).isSome = true →
          ∀ payload ∈ s.2 w.eid (snToU64 an.base + UInt64.ofNat bit),
            s.1.WantedEverywhere w.config payload
  | _ => True

def isMessage : Effect → Bool
  | .unicast _ _ (.message _) => true
  | .multicast _ _ => true
  | _ => false

theorem mem_sendSample_of_write {rnd : Bytes} {e : Effect}
    (h : e ∈ (p.write w payload rnd now).effects) (he : isMessage e) :
    ∃ wire msgs, (p.write w payload rnd now).error = none ∧
      w.messages p.guidPrefix (u64ToSN (w.seq + 1)) now wire = some msgs ∧
      e ∈ p.sendSample w payload msgs := by
  by_cases hrefused : Refused w payload
  · obtain ⟨err, herr⟩ := write_of_refused (p := p) hrefused rnd now
    rw [herr] at h
    cases h
  by_cases hsend : Sendable p.config w payload rnd
  swap
  · obtain ⟨err, herr⟩ := write_of_not_sendable hrefused hsend now
    rw [herr] at h
    cases h
  obtain ⟨wire, msgs, -, hmsgs, hwrite⟩ := write_of_sendable hrefused hsend now
  refine ⟨wire, msgs, error_write_eq_none.2 ⟨hrefused, hsend⟩, hmsgs, ?_⟩
  rw [hwrite, publish_effects] at h
  rcases mem_append.1 h with h | h
  · obtain ⟨r, -, ⟨origin, sample, queued, rfl⟩, -⟩ := deliverLocally_effects h
    cases he
  rcases mem_append.1 h with h | h
  · exact h
  · split_ifs at h
    · rw [sendHeartbeat_effects] at h
      cases hhb : ({ w with seq := w.seq + 1 }.keep msgs).heartbeat with
      | none => simp [hhb] at h
      | some r =>
        rw [hhb] at h
        obtain ⟨dst, peer, rfl⟩ := mem_sendTo h
        cases he
    · cases h

theorem withholds_write (s : Participant × Log) (eid : EntityId) (payload rnd : Bytes) (now : Int) :
    Withholds s (.call (.write eid payload rnd now)) := by
  obtain ⟨p, log⟩ := s
  -- whatever the write sends carries its own sample
  have hsent : ∀ e ∈ (p.turn (.call (.write eid payload rnd now))).2, isMessage e →
      ∃ w wire msgs, p.writers.get? eid = some w ∧ w.eid = eid ∧
        w.messages p.guidPrefix (u64ToSN (w.seq + 1)) now wire = some msgs ∧
        logged p log (.call (.write eid payload rnd now)) eid (w.seq + 1) = some payload ∧
        e ∈ p.sendSample w payload msgs := by
    intro e he hmessage
    change e ∈ (p.writeBy eid payload rnd now).2 at he
    unfold writeBy at he
    cases hget : p.writers.get? eid with
    | none => simp [hget] at he
    | some w =>
      rw [hget] at he
      obtain ⟨wire, msgs, hok, hmsgs, hmem⟩ := mem_sendSample_of_write he hmessage
      refine ⟨w, wire, msgs, rfl, (get?_eq_some.1 hget).2, hmsgs, ?_, hmem⟩
      refine logged_published ?_
      rw [published, if_pos rfl, hget, bind_some, if_pos hok]
  constructor
  · intro _ dst peer msg he
    obtain ⟨w, wire, msgs, hget, rfl, hmsgs, hlog, hmem⟩ := hsent _ he rfl
    unfold sendSample at hmem
    dsimp only at hmem
    split_ifs at hmem with hmulti
    · obtain ⟨m, -, hm⟩ := mem_map.1 hmem
      cases hm
    · obtain ⟨rl, hrl, hin⟩ := mem_flatMap.1 hmem
      split_ifs at hin with hpass
      · cases hin
      · cases hdst : rl.loc.udpAddr with
        | none => simp [hdst] at hin
        | some dst' =>
          rw [hdst] at hin
          obtain ⟨m, hm, heq⟩ := mem_map.1 hin
          cases heq
          rw [sampleOf_messages hmsgs hm]
          exact ⟨w, payload, hget, hlog, wanted_of_passes hrl (by simpa using hpass) hdst⟩
  · intro _ group msg he
    obtain ⟨w, wire, msgs, hget, rfl, hmsgs, hlog, hmem⟩ := hsent _ he rfl
    unfold sendSample at hmem
    dsimp only at hmem
    split_ifs at hmem with hmulti
    · obtain ⟨m, hm, heq⟩ := mem_map.1 hmem
      cases heq
      rw [sampleOf_messages hmsgs hm]
      exact ⟨w, payload, hget, hlog, wantedEverywhere_of_multicast hmulti payload⟩
    · obtain ⟨rl, hrl, hin⟩ := mem_flatMap.1 hmem
      split_ifs at hin
      · cases hin
      · split at hin
        · cases hin
        · obtain ⟨m, -, hm⟩ := mem_map.1 hin
          cases hm

theorem mem_sendTo_iff {locs : List ReaderLocator} {out out' : Outgoing} :
    .unicast dst peer out' ∈ sendTo locs out ↔
      out' = out ∧ ∃ rl ∈ locs, rl.loc.udpAddr = some dst ∧ rl.guidPrefix = peer := by
  unfold sendTo
  rw [mem_filterMap]
  constructor
  · rintro ⟨rl, hrl, h⟩
    obtain ⟨dst', hdst, heq⟩ := map_eq_some_iff.1 h
    obtain ⟨rfl, rfl, rfl⟩ := Effect.unicast.inj heq
    exact ⟨rfl, rl, hrl, hdst, rfl⟩
  · rintro ⟨rfl, rl, hrl, hdst, rfl⟩
    exact ⟨rl, hrl, by rw [hdst]; rfl⟩

theorem mem_retransmissions_iff : .unicast dst peer (.message msg) ∈ p.retransmissions w an ↔
      ∃ bit < 32, an.bitmap.toNat.testBit bit ∧
        w.history.get (snToU64 an.base + UInt64.ofNat bit) = some msg ∧
        ∃ rl ∈ p.matchedReaderLocators w.topic w.qos.partition, rl.loc.udpAddr = some dst ∧
          rl.guidPrefix = peer := by
  unfold retransmissions
  rw [mem_flatMap]
  constructor
  · rintro ⟨bit, hbit, h⟩
    split_ifs at h with hset
    · cases hget : w.history.get (snToU64 an.base + UInt64.ofNat bit) with
      | none => simp [hget] at h
      | some m =>
        rw [hget] at h
        obtain ⟨hout, hrl⟩ := mem_sendTo_iff.1 h
        obtain rfl := Outgoing.message.inj hout
        exact ⟨bit, mem_range.1 hbit, hset, hget, hrl⟩
    · cases h
  · rintro ⟨bit, hbit, hset, hget, hrl⟩
    refine ⟨bit, mem_range.2 hbit, ?_⟩
    rw [if_pos hset, hget]
    exact mem_sendTo_iff.2 ⟨rfl, hrl⟩

theorem not_message_of_gapEffects {src : Option UDPAddr} {e : Effect}
    (h : e ∈ p.gapEffects w an src) : isMessage e = false := by
  unfold gapEffects at h
  cases hgap : evictedGap w an with
  | none => simp [hgap] at h
  | some g =>
    rw [hgap] at h
    rcases mem_append.1 h with h | h
    · cases src with
      | none => cases h
      | some addr =>
        rw [mem_singleton.1 h]
        rfl
    · obtain ⟨dst, peer, rfl⟩ := mem_sendTo h
      rfl

theorem mem_act_ackNack_iff {g : GUID} {src : Option UDPAddr} :
    .unicast dst peer (.message msg) ∈ (p.act ⟨.ackNack g an, src, now⟩).2 ↔
      p.stuck = false ∧ ∃ w, p.writers.get? an.writerEntityId = some w ∧ w.reliable ∧
        .unicast dst peer (.message msg) ∈ p.retransmissions w an := by
  cases hstuck : p.stuck with
  | true =>
    rw [act_of_stuck hstuck]
    simp
  | false =>
    rw [act_ackNack hstuck, handleAckNack]
    cases hget : p.writers.get? an.writerEntityId with
    | none => simp
    | some w =>
      cases hrel : w.reliable with
      | false => simp [hrel]
      | true =>
        have hgap : .unicast dst peer (.message msg) ∉ p.gapEffects w an src :=
          fun h => Bool.false_ne_true (not_message_of_gapEffects h).symm
        simp [hrel, hgap]

theorem not_multicast_of_act {i : Input} {group : UDPAddr} :
    .multicast group msg ∉ (p.act i).2 := by
  intro h
  obtain ⟨a, src, now⟩ := i
  cases a with
  | data g sn payload ts =>
    rcases act_data_effects h with ⟨verdict, he⟩ | ⟨r, -, addr, m, count, -, -, he⟩ |
      ⟨eid, sample, queued, he⟩ <;> cases he
  | heartbeat g hb =>
    obtain ⟨r, -, addr, m, count, -, -, he⟩ := act_heartbeat_effects h
    cases he
  | ackNack g an =>
    cases hstuck : p.stuck with
    | true =>
      rw [act_of_stuck hstuck] at h
      cases h
    | false =>
      rw [act_ackNack hstuck] at h
      obtain ⟨w, dst, peer, -, ⟨sn, msg, -, he⟩ | ⟨gap, -, he⟩⟩ := handleAckNack_effects h <;> cases he

theorem Kept.of_get (h : Kept s) (hget : s.1.writers.get? w.eid = some w)
    (hmsg : w.history.get n = some msg) :
    sampleOf msg = (w.eid, n) ∧ ∃ payload, s.2 w.eid n = some payload := by
  obtain ⟨hsample, hlog⟩ := h w.eid (record w) (recordOf_of_get? hget rfl).symm
    (slot n) n msg (get_eq_some.1 hmsg).2.2.2
  exact ⟨hsample, isSome_iff_exists.1 hlog⟩

theorem withholds_ackNack (h : Kept s) (g : GUID) (an : AckNack) (src : Option UDPAddr) (now : Int) :
    Withholds s (.act ⟨.ackNack g an, src, now⟩) ↔ AsksWanted s (.act ⟨.ackNack g an, src, now⟩) := by
  obtain ⟨p, log⟩ := s
  have hlogged : ∀ t, (∃ i, t = .act i) → logged p log t = log := by
    rintro _ ⟨i, rfl⟩
    rfl
  constructor
  · intro hwithholds hstuck w hw hrel bit hbit hset hkept payload hpayload x hx dst hdst
    have hweid : w.eid = an.writerEntityId := (get?_eq_some.1 hw).2
    rw [← hweid] at hw
    obtain ⟨msg, hmsg⟩ := isSome_iff_exists.1 hkept
    obtain ⟨rl, hrl, hloc⟩ :=
      (p.summary_matchedReaderLocators w.topic w.qos.partition).complete x hx
    have hsent : .unicast dst rl.guidPrefix (.message msg) ∈
        (p.act ⟨.ackNack g an, src, now⟩).2 := by
      refine mem_act_ackNack_iff.2 ⟨hstuck, w, hweid ▸ hw, hrel, mem_retransmissions_iff.2 ?_⟩
      exact ⟨bit, hbit, hset, hmsg, rl, hrl, by rw [hloc]; exact hdst, rfl⟩
    obtain ⟨w', payload', hw', hlog', hwanted⟩ := hwithholds.unicast trivial dst _ msg hsent
    rw [hlogged _ ⟨_, rfl⟩, (h.of_get hw hmsg).1] at hlog'
    rw [(h.of_get hw hmsg).1] at hw'
    obtain rfl := some.inj (hw.symm.trans hw')
    obtain rfl := some.inj ((mem_def.1 hpayload).symm.trans hlog')
    exact hwanted
  · intro hasks
    refine ⟨fun _ dst peer msg hsent => ?_, fun _ group msg hsent => absurd hsent not_multicast_of_act⟩
    obtain ⟨hstuck, w, hw, hrel, hmem⟩ := mem_act_ackNack_iff.1 hsent
    obtain ⟨bit, hbit, hset, hmsg, rl, hrl, hdst, -⟩ := mem_retransmissions_iff.1 hmem
    have hweid : w.eid = an.writerEntityId := (get?_eq_some.1 hw).2
    obtain ⟨hsample, payload, hpayload⟩ := h.of_get (hweid ▸ hw) hmsg
    obtain ⟨ri, hfirst, -⟩ := (p.summary_matchedReaderLocators w.topic w.qos.partition).first rl hrl
    rw [hlogged _ ⟨_, rfl⟩, hsample]
    refine ⟨w, payload, hweid ▸ hw, hpayload, ?_⟩
    exact hasks hstuck w hw hrel bit hbit hset (by rw [hmsg]; rfl) payload hpayload (ri, rl.loc)
      (mem_of_find?_eq_some hfirst) dst hdst

theorem withholds_act (h : Kept s) (i : Input) : Withholds s (.act i) ↔ AsksWanted s (.act i) := by
  obtain ⟨a, src, now⟩ := i
  cases a with
  | ackNack g an => exact withholds_ackNack h g an src now
  | data g sn payload ts =>
    refine iff_of_true ⟨fun _ dst peer msg hsent => ?_, fun _ group msg hsent =>
      absurd hsent not_multicast_of_act⟩ trivial
    rcases act_data_effects hsent with ⟨verdict, he⟩ | ⟨r, -, addr, m, count, -, -, he⟩ |
      ⟨eid, sample, queued, he⟩ <;> cases he
  | heartbeat g hb =>
    refine iff_of_true ⟨fun _ dst peer msg hsent => ?_, fun _ group msg hsent =>
      absurd hsent not_multicast_of_act⟩ trivial
    obtain ⟨r, -, addr, m, count, -, -, he⟩ := act_heartbeat_effects hsent
    cases he

theorem withholds_iff (h : Kept s) (t : Turn) : Withholds s t ↔ AsksWanted s t := by
  cases t with
  | act i => exact withholds_act h i
  | call c =>
    have hasks : AsksWanted s (.call c) := trivial
    refine iff_of_true ?_ hasks
    cases c with
    | write eid payload rnd now => exact withholds_write s eid payload rnd now
    | _ => exact ⟨False.elim, False.elim⟩
  | _ => exact iff_of_true ⟨False.elim, False.elim⟩ trivial

/-- In a run, no sample is sent to an address where no matched reader wants it, exactly if every
negative acknowledgement asks only for samples that are wanted at every matched address. -/
theorem withholding_iff (cfg : ParticipantConfig) (antiReplay : Option ReplayGuard)
    (ts : List Turn) : Run.Along (fun _ s t => Withholds s t) track []
        (Participant.new cfg antiReplay, fun _ _ => none) ts ↔
      Run.Along (fun _ s t => AsksWanted s t) track []
        (Participant.new cfg antiReplay, fun _ _ => none) ts :=
  Run.along_congr_of_invariant (I := Kept) (fun _ _ t hs _ => kept_track hs t)
    (fun _ _ t hs => withholds_iff hs t) [] (kept_new cfg antiReplay) ts

def announcedReader (pre : GuidPrefix) (cf : Option ContentFilterSpec) : EndpointInfo :=
  { guid := ⟨pre, entityIdForReader 1⟩, topicName := str "t", contentFilter := cf }

/-- Sample `[2]` is sent to the reader that wants it alone; when that asks for it again, the other
gets it too. -/
theorem retransmission_ignores_filters :
    let own : GuidPrefix := copy 12 [1]
    let addr (k : UInt8) : Locator :=
      ⟨locatorKindUDPv4, 7411, copy 16 (replicate 12 0 ++ [10, 0, 0, k])⟩
    let picky := announcedReader (copy 12 [2])
      (some ⟨fun payload => payload.head? = some 1, [], []⟩)
    let keen := announcedReader (copy 12 [3]) none
    let eid := entityIdForWriter 1
    let nack := Action.ackNack keen.guid ⟨entityIdForReader 1, eid, u64ToSN 1, 1, 1⟩
    let s := (Run.run track (Participant.new (ParticipantConfig.ofDefaults own) none, fun _ _ => none)
      [.call (.newPublisher (str "t") [] { defaultQoS with reliability := .reliable } 0),
        .remoteReader picky (addr 2), .remoteReader keen (addr 3), .call (.write eid [2] [] 0)]).1
    let msg := dataMessage own eid (u64ToSN 1) 0 [2]
    (addr 2).udpAddr = some ⟨[10, 0, 0, 2], 7411⟩ ∧
      .unicast ⟨[10, 0, 0, 2], 7411⟩ picky.guid.guidPrefix (.message msg) ∈
        (s.1.turn (.act ⟨nack, none, 0⟩)).2 ∧
      s.2 (sampleOf msg).1 (sampleOf msg).2 = some [2] ∧
      ((s.1.matchedReaders (str "t") []).filter fun x =>
        x.2.udpAddr = some ⟨[10, 0, 0, 2], 7411⟩).map (fun x => x.1.guid) = [picky.guid] ∧
      evalContentFilter picky.contentFilter [2] = false := by decide +kernel

end Participant

end GoDDS
