import GoDDS.Rtps.Link

/-!
# End-to-end delivery

The messages a write emits for one destination, received there in order.
-/

namespace GoDDS

open ByteCodec Go Security Option Outgoing FixedBytes Effect
open List hiding lt_irrefl

/-! ## Messages to one address -/

def messagesTo (own : GuidPrefix) (dst : UDPAddr) (effs : List Effect) : List Bytes :=
  effs.filterMap fun e =>
    match e with
    | .unicast d _ out => if d = dst then some (out.bytes own) else none
    | .multicast _ msg => some msg
    | _ => none

variable {payload : Bytes} {eid : EntityId} {g : GUID} {sender : GuidPrefix} {i : Input}
  {now ts : Int} {effs : List Effect} {src : Option UDPAddr} {p : Participant}
  {cfg : ParticipantConfig} {r : Reader} {sn : UInt64} {w : Writer}

section Messages

variable {own : GuidPrefix} {dst : UDPAddr}

theorem messagesTo_append (a b : List Effect) :
    messagesTo own dst (a ++ b) = messagesTo own dst a ++ messagesTo own dst b :=
  filterMap_append

theorem messagesTo_flatMap (locs : List ReaderLocator) (f : ReaderLocator → List Effect)
    (hf : ∀ lm, lm.loc.udpAddr ≠ some dst → messagesTo own dst (f lm) = []) :
    messagesTo own dst (locs.flatMap f) =
      (locs.filter fun lm => lm.loc.udpAddr = some dst).flatMap fun lm =>
        messagesTo own dst (f lm) := by
  induction locs with
  | nil => rfl
  | cons lm locs ih =>
    rw [flatMap_cons, messagesTo_append, ih]
    by_cases h : lm.loc.udpAddr = some dst
    · rw [filter_cons_of_pos (by simpa using h), flatMap_cons]
    · rw [filter_cons_of_neg (by simpa using h), hf lm h, nil_append]

theorem messagesTo_unicast (peer : GuidPrefix) (msgs : List Bytes) :
    messagesTo own dst (msgs.map fun msg => .unicast dst peer (.message msg)) = msgs := by
  simp [messagesTo, filterMap_map, bytes]

theorem messagesTo_multicast (group : UDPAddr) (msgs : List Bytes) :
    messagesTo own dst (msgs.map (multicast group)) = msgs := by
  simp [messagesTo, filterMap_map]

theorem messagesTo_unicast_ne {d : UDPAddr} (h : d ≠ dst) (peer : GuidPrefix) (msgs : List Bytes) :
    messagesTo own dst (msgs.map fun msg => .unicast d peer (.message msg)) = [] := by
  simp [messagesTo, filterMap_map, h]

theorem messagesTo_dispatches (h : ∀ e ∈ effs, ∃ eid g o s queued, e = .dispatch eid g o s queued) :
    messagesTo own dst effs = [] := by
  refine filterMap_eq_nil_iff.2 fun e he => ?_
  obtain ⟨eid, g, o, s, queued, rfl⟩ := h e he
  rfl

theorem mem_messagesTo {msg : Bytes} (h : msg ∈ messagesTo own dst effs) :
    (∃ peer out, unicast dst peer out ∈ effs ∧ msg = out.bytes own) ∨
      ∃ group, multicast group msg ∈ effs := by
  obtain ⟨e, he, hmsg⟩ := mem_filterMap.1 h
  cases e with
  | unicast d peer out =>
    change (if d = dst then some (out.bytes own) else none) = some msg at hmsg
    by_cases hd : d = dst
    · subst hd
      rw [if_pos rfl] at hmsg
      exact .inl ⟨peer, out, he, (some.inj hmsg).symm⟩
    · rw [if_neg hd] at hmsg
      cases hmsg
  | multicast group m =>
    obtain rfl := some.inj hmsg
    exact .inr ⟨group, he⟩
  | _ => cases hmsg

theorem bytes_mem_messagesTo {peer : GuidPrefix} {out : Outgoing}
    (h : unicast dst peer out ∈ effs) : out.bytes own ∈ messagesTo own dst effs :=
  mem_filterMap.2 ⟨_, h, if_pos rfl⟩

end Messages

namespace Participant

/-- One of the matched addresses of the writer is `dst`, and its reader wants the payload. -/
structure Reaches (p : Participant) (w : WriterConfig) (dst : UDPAddr) (payload : Bytes) : Prop where
  once : ∃ lm, (p.matchedReaderLocators w.topic w.qos.partition).filter
    (fun lm => lm.loc.udpAddr = some dst) = [lm] ∧ lm.passes payload = true

theorem messagesTo_sendSample {dst : UDPAddr} (h : p.Reaches w.config dst payload)
    (own : GuidPrefix) (msgs : List Bytes) :
    messagesTo own dst (p.sendSample w payload msgs) = msgs := by
  obtain ⟨lm, hlm, hpass⟩ := h.once
  have hmem : lm ∈ (p.matchedReaderLocators w.topic w.qos.partition).filter
      fun lm => lm.loc.udpAddr = some dst := by
    rw [hlm]
    exact mem_singleton_self lm
  have haddr : lm.loc.udpAddr = some dst := by simpa using (mem_filter.1 hmem).2
  unfold sendSample
  by_cases hcast : p.useMulticast w (p.matchedReaderLocators w.topic w.qos.partition) = true
  · rw [if_pos hcast]
    exact messagesTo_multicast _ _
  · rw [if_neg hcast, messagesTo_flatMap, hlm, flatMap_singleton, if_neg (by simp [hpass]),
      haddr]
    · exact messagesTo_unicast _ _
    · intro lm' hne
      split_ifs
      · rfl
      · cases haddr' : lm'.loc.udpAddr with
        | none => rfl
        | some d =>
          have hd : d ≠ dst := fun hd => hne (by rw [haddr', hd])
          exact messagesTo_unicast_ne hd _ _

theorem heartbeat_of_mem_sendHeartbeat {own : GuidPrefix} {dst : UDPAddr} {msg : Bytes}
    (h : msg ∈ messagesTo own dst (p.sendHeartbeat w).2) :
    ∃ hb, msg = (heartbeat hb).bytes own := by
  rw [sendHeartbeat_effects] at h
  cases hhb : w.heartbeat with
  | none =>
    rw [hhb] at h
    cases h
  | some r =>
    rw [hhb] at h
    rcases mem_messagesTo h with ⟨peer, out, he, rfl⟩ | ⟨group, he⟩
    · obtain ⟨dst', peer', heq⟩ := mem_sendTo he
      cases heq
      exact ⟨r.2, rfl⟩
    · obtain ⟨dst', peer', heq⟩ := mem_sendTo he
      cases heq

theorem messagesTo_publish (p : Participant) (w : Writer) (payload : Bytes) (dst : UDPAddr)
    (now : Int) (msgs : List Bytes) :
    ∃ beats, messagesTo p.guidPrefix dst (p.publish w payload now msgs).2 =
        messagesTo p.guidPrefix dst (p.sendSample w payload msgs) ++ beats ∧
      ∀ msg ∈ beats, ∃ hb, msg = (heartbeat hb).bytes p.guidPrefix := by
  refine ⟨messagesTo p.guidPrefix dst
    (if w.reliable then (p.sendHeartbeat (w.keep msgs)).2 else []), ?_, ?_⟩
  · rw [publish_effects, messagesTo_append, messagesTo_append, messagesTo_dispatches, nil_append]
    intro e he
    obtain ⟨r, -, ⟨queued, hdisp⟩, -⟩ := dispatchToReaders_effects he
    exact ⟨_, _, _, _, queued, hdisp⟩
  · intro msg hmsg
    split_ifs at hmsg
    · exact heartbeat_of_mem_sendHeartbeat hmsg
    · cases hmsg

theorem messagesTo_write {rnd : Bytes} (hsec : p.security = none)
    (hacc : (p.write w payload rnd now).error = none) (dst : UDPAddr) :
    ∃ msgs beats, { w with seq := w.seq + 1 }.messages p.guidPrefix (u64ToSN (w.seq + 1)) now
          payload = some msgs ∧ messagesTo p.guidPrefix dst (p.write w payload rnd now).effects =
        messagesTo p.guidPrefix dst (p.sendSample w payload msgs) ++ beats ∧
      ∀ msg ∈ beats, ∃ hb, msg = (heartbeat hb).bytes p.guidPrefix := by
  rcases write_cases p w payload rnd now with ⟨e, heq⟩ | ⟨e, heq⟩ | ⟨wire, msgs, hseal, hmsgs, heq⟩
  · rw [heq] at hacc
    cases hacc
  · rw [heq] at hacc
    cases hacc
  · rw [sealPayload, hsec] at hseal
    obtain rfl := some.inj hseal
    obtain ⟨beats, hsent, hbeats⟩ := messagesTo_publish
      ((p.countWrite w.topic payload).setWriter { w with seq := w.seq + 1 })
      { w with seq := w.seq + 1 } payload dst now msgs
    rw [heq]
    exact ⟨msgs, beats, hmsgs, hsent, hbeats⟩

theorem short_of_data (hsec : cfg.security = none) (h : sender ≠ cfg.guidPrefix) {w : EntityId}
    {n : SequenceNumber} {t : Int} {wire : Bytes} (hlen : 65536 ≤ wire.length + 24)
    (hi : i ∈ inputsOf cfg ⟨dataMessage sender w n t wire, src, now⟩)
    (ha : i.action = .data g sn payload ts) : payload.length < wire.length := by
  rw [dataMessage, inputsOf_infoTS h] at hi
  obtain ⟨s, hs, -, hbody⟩ := length_of_data_input hsec hi ha
  have hlt := length_body_lt_fuel hs
  omega

theorem short_of_dataFrag (hsec : cfg.security = none) (h : sender ≠ cfg.guidPrefix) {t : Int}
    {f : DataFrag} (hreader : f.readerEntityId = entityIdUnknown) (hlen : f.payload.length < 65536)
    (hi : i ∈ inputsOf cfg ⟨dataFragMessage sender t f, src, now⟩)
    (ha : i.action = .data g sn payload ts) : payload.length + 4 ≤ f.payload.length := by
  rw [dataFragMessage, inputsOf_infoTS h, marshalDataFrag, frame,
    parseSubmessages_header _ _ _ _ (by decide)] at hi
  have hbody := length_dataFragBody f
  have hn : (UInt16.ofNat (dataFragBody f).length).toNat = (dataFragBody f).length % 65536 :=
    UInt16.toNat_ofNat'
  generalize (UInt16.ofNat (dataFragBody f).length).toNat = n at hi hn
  rw [if_neg (by omega)] at hi
  obtain ⟨s, hs, hid, hpay⟩ := length_of_data_input hsec hi ha
  rcases mem_cons.1 hs with rfl | hs
  · have hne : ¬ submsgDATAFRAG = submsgDATA := by decide
    exact absurd hid hne
  · -- what is left of the body starts with the zeros the length field has not stepped over
    have hzero : ((dataFragBody f).drop n).take (8 - n) = List.replicate (8 - n) 0 := by
      rw [← drop_take, take_dataFragBody hreader, drop_replicate]
    have hroom := length_body_of_zeros_fuel hzero hs (by rw [hid]; decide)
    rw [length_drop] at hroom
    omega

def payloadsFor (eid : EntityId) (effs : List Effect) : List Bytes :=
  (effs.filter (Effect.isDispatchTo eid)).filterMap fun e =>
    match e with
    | .dispatch _ _ _ s true => some s.payload
    | _ => none

theorem payloadsFor_append (a b : List Effect) :
    payloadsFor eid (a ++ b) = payloadsFor eid a ++ payloadsFor eid b := by
  rw [payloadsFor, filter_append, filterMap_append]
  rfl

theorem payloadsFor_act (h : payload ∈ payloadsFor eid (p.act i).2) :
    ∃ g sn ts, i.action = .data g sn payload ts := by
  unfold payloadsFor at h
  rcases act_dispatches p i eid with
    hnil | ⟨r, r', g, sn, payload', ts, queued, ha, -, -, -, -, -, hone⟩
  · rw [hnil] at h
    cases h
  · rw [hone] at h
    cases queued with
    | false => cases h
    | true =>
      obtain rfl := mem_singleton.1 h
      exact ⟨g, sn, ts, ha⟩

theorem payloadsFor_run {is : List Input} (h : payload ∈ payloadsFor eid (Run.run act p is).2) :
    ∃ i ∈ is, ∃ g sn ts, i.action = .data g sn payload ts := by
  induction is generalizing p with
  | nil => cases h
  | cons i is ih =>
    rw [Run.run_cons, payloadsFor_append] at h
    rcases mem_append.1 h with h | h
    · exact ⟨i, mem_cons_self, payloadsFor_act h⟩
    · obtain ⟨j, hj, hact⟩ := ih h
      exact ⟨j, mem_cons_of_mem i hj, hact⟩

end Participant

/-! ## The loop that never ends -/

theorem RecvTracker.expected_record_maxSN (rt : RecvTracker) :
    (rt.record maxSN).1.expected.toNat = 2 ^ 64 - 32 ↔
      rt.initDone ∧ rt.expected.toNat = 2 ^ 64 - 32 := by
  have hmax : maxSN.toNat = 2 ^ 64 - 1 := rfl
  have hcontact : ∀ e, (rt.initExpected maxSN).expected = e → e.toNat = 2 ^ 64 - 32 →
      rt.initDone ∧ rt.expected = e := by
    intro e he hval
    unfold initExpected at he
    split_ifs at he with hinit
    · rw [← he, hmax] at hval
      omega
    · exact ⟨eq_true_of_ne_false hinit, he⟩
  constructor
  · intro h
    rcases record_cases rt maxSN with ⟨hr, -⟩ | ⟨heq, -, he, -⟩ | ⟨-, -, he, -⟩
    · rw [hr] at h
      obtain ⟨hinit, hexp⟩ := hcontact _ rfl h
      exact ⟨hinit, hexp ▸ h⟩
    · -- nothing is ahead of the largest number, so the watermark has wrapped to 0
      have hempty : (rt.initExpected maxSN).ahead = ∅ := by
        refine Finset.eq_empty_of_forall_notMem fun s hs => ?_
        have hgt := (rt.initExpected maxSN).ahead_gt s hs
        rw [← heq, UInt64.lt_iff_toNat_lt, hmax] at hgt
        have := s.toNat_lt
        omega
      rw [he, hempty, ← heq] at h
      exact absurd h (by decide)
    · rw [he] at h
      obtain ⟨hinit, hexp⟩ := hcontact _ rfl h
      exact ⟨hinit, hexp ▸ h⟩
  · rintro ⟨hinit, hval⟩
    have hcases := record_cases rt maxSN
    simp only [initExpected_of_initDone hinit] at hcases
    rcases hcases with ⟨hr, -⟩ | ⟨heq, -⟩ | ⟨-, -, he, -⟩
    · rw [hr]
      exact hval
    · rw [← heq, hmax] at hval
      omega
    · rw [he]
      exact hval

namespace Reader

/-- Recording number `sn` of writer `g` makes the reader's scan for missing numbers run forever. -/
def Loops (r : Reader) (g : GUID) (sn : UInt64) : Prop :=
  r.reliable = true ∧ (r.trackerFor g).initDone = true ∧
    (r.trackerFor g).expected.toNat = 2 ^ 64 - 32 ∧ sn = RecvTracker.maxSN
  deriving Decidable

theorem acknowledge_stuck_iff {rt : RecvTracker} {lastSN : UInt64} :
    (r.acknowledge g rt lastSN src).stuck ↔ rt.missing lastSN = none := by
  unfold acknowledge
  cases hm : rt.missing lastSN with
  | none => simp
  | some m =>
    cases src with
    | none => simp
    | some addr =>
      dsimp only
      split_ifs <;> simp

open RecvTracker

theorem notify_stuck_iff {own : GuidPrefix} :
    (r.notify own g sn src).stuck ↔ r.acceptsSource own g ∧ r.Loops g sn := by
  unfold notify
  by_cases hskip : (!r.reliable || !r.acceptsSource own g) = true
  · rw [if_pos hskip]
    simp only [Bool.false_eq_true, false_iff, not_and]
    intro hacc hloop
    rw [hloop.1, hacc] at hskip
    cases hskip
  · rw [if_neg hskip, acknowledge_stuck_iff, missing_eq_none_iff]
    simp only [Bool.or_eq_true, Bool.not_eq_true', not_or, Bool.not_eq_false] at hskip
    constructor
    · intro h
      obtain ⟨-, hexp, rfl⟩ := h
      obtain ⟨hinit, hval⟩ := (expected_record_maxSN _).1 hexp
      exact ⟨hskip.2, hskip.1, hinit, hval, rfl⟩
    · intro h
      obtain ⟨-, -, hinit, hval, rfl⟩ := h
      exact ⟨initDone_record _ _,
        (expected_record_maxSN _).2 ⟨hinit, hval⟩, rfl⟩

theorem ch_touchLiveliness (r : Reader) (g : GUID) (now : Int) :
    (r.touchLiveliness g now).ch = r.ch := by
  unfold touchLiveliness
  split <;> rfl

theorem ch_notify (r : Reader) (own : GuidPrefix) (g : GUID) (sn : UInt64)
    (src : Option UDPAddr) : (r.notify own g sn src).reader.ch = r.ch := by
  unfold notify acknowledge
  split_ifs
  · rfl
  · split
    · rfl
    · split
      · rfl
      · split_ifs <;> rfl

structure Ready (r : Reader) : Prop where
  opened : r.closed = false
  filter : r.filter = none
  contentFilter : r.contentFilter = none
  minSeparation : r.minSeparation ≤ 0
  room : r.ch.length < r.depth

theorem Ready.of_same {r' : Reader} (h : r.Ready) (hsame : SameSources r r') (hch : r'.ch = r.ch) :
    r'.Ready := by
  refine ⟨hsame.closed.trans h.opened, ?_, ?_, ?_, ?_⟩
  · rw [hsame.cfg]
    exact h.filter
  · rw [hsame.cfg]
    exact h.contentFilter
  · rw [hsame.cfg]
    exact h.minSeparation
  · rw [hch, hsame.cfg]
    exact h.room

end Reader

namespace Participant

/-! ## Delivery of one sample -/

theorem deliverToReader_ready (hr : r.Ready) (d : Dispatch) :
    (deliverToReader d r).2.effects = [.dispatch r.eid d.source d.origin (d.sample r) true] := by
  rw [deliverToReader, if_neg (by simp [hr.opened]), Reader.push_of_room hr.room]

theorem offer_ready (hr : r.Ready) {d : Dispatch} (hremote : d.source.guidPrefix ≠ p.guidPrefix)
    (hacc : r.acceptsSource p.guidPrefix d.source) (hfits : d.topicFits r) :
    (p.offer d r).2.effects = if p.ownershipAllows r.topic d.source then
        [.dispatch r.eid d.source d.origin (d.sample r) true] else [] := by
  have htouch := r.sameMatch_touchLiveliness d.source d.now
  have hready := hr.of_same htouch.sameSources (r.ch_touchLiveliness d.source d.now)
  have htopic : (r.touchLiveliness d.source d.now).topic = r.topic :=
    congrArg ReaderConfig.topic htouch.cfg
  have htime : (r.touchLiveliness d.source d.now).passesTimeBasedFilter d.source d.now =
      (r.touchLiveliness d.source d.now, true) := if_pos hready.minSeparation
  have hpass : d.passesFilters (r.touchLiveliness d.source d.now) := by
    rw [Dispatch.passesFilters, hready.filter, hready.contentFilter]
    rfl
  unfold offer
  simp only [hfits, hacc, hremote, htopic, htime, hpass, false_and, Bool.not_true,
    Bool.false_eq_true, if_false]
  by_cases hown : p.ownershipAllows r.topic d.source
  · rw [if_neg (by simp [hown]), if_pos hown, deliverToReader_ready hready, htouch.eid,
      sample_congr htouch.cfg]
  · rw [if_pos (by simpa using hown), if_neg hown]
    rfl

def OnlyReader (p : Participant) (eid : EntityId) (g : GUID) : Prop :=
  ∀ r ∈ p.readers.items, r.acceptsSource p.guidPrefix g = true → r.eid = eid

/-- **What one sample of a remote writer gives the reader**: its payload, unless ownership forbids
it or the handler gets stuck. -/
theorem payloadsFor_data (hstuck : p.stuck = false) (hreplay : p.antiReplay = none)
    (hr : p.readers.get? eid = some r) (hready : r.Ready) (hremote : g.guidPrefix ≠ p.guidPrefix)
    (hacc : r.acceptsSource p.guidPrefix g) (honly : p.OnlyReader eid g) (sn : UInt64)
    (payload : Bytes) (ts : Int) (src : Option UDPAddr) (now : Int) :
    payloadsFor eid (p.act ⟨.data g sn payload ts, src, now⟩).2 =
      if p.ownershipAllows r.topic g = true ∧ ¬ r.Loops g sn then [payload] else [] := by
  have hchk : p.checkReplay g sn ts = (p, [], true) := by
    rw [checkReplay, hreplay]
  have hloop : (p.notifyReliableReaders g sn src).1.stuck ↔ r.Loops g sn := by
    show (p.stuck || p.readers.items.any fun r => (r.notify p.guidPrefix g sn src).stuck) = true ↔ _
    rw [hstuck, Bool.false_or, List.any_eq_true]
    constructor
    · intro h
      obtain ⟨r', hr', hs⟩ := h
      obtain ⟨hacc', hloop⟩ := Reader.notify_stuck_iff.1 hs
      have heid := honly r' hr' hacc'
      have hget : p.readers.get? eid = some r' := Registry.get?_eq_some.2 ⟨hr', heid⟩
      obtain rfl := some.inj (hr.symm.trans hget)
      exact hloop
    · intro h
      exact ⟨r, (Registry.get?_eq_some.1 hr).1, Reader.notify_stuck_iff.2 ⟨hacc, h⟩⟩
  have hnone : payloadsFor eid (p.notifyReliableReaders g sn src).2 = [] := by
    rw [payloadsFor, notifyReliableReaders_dispatches]
    rfl
  have hcases := handleOpened_cases p g sn payload src ts now
  simp only [hchk] at hcases
  rw [act_data hstuck]
  rcases hcases with ⟨hfalse, -⟩ | ⟨-, hs, heq⟩ | ⟨-, hs, heq⟩
  · cases hfalse
  · rw [heq, if_neg fun h => h.2 (hloop.1 hs), nil_append]
    exact hnone
  · have hnot : ¬ r.Loops g sn := fun h => absurd (hloop.2 h) (by rw [hs]; exact Bool.false_ne_true)
    have hsame := r.sameSources_notify p.guidPrefix g sn src
    have hready' := hready.of_same hsame (r.ch_notify _ _ _ _)
    have hoffer := offer_ready (p := (p.notifyReliableReaders g sn src).1) hready'
      (d := remoteDispatch g sn payload ts now) hremote
      ((hsame.acceptsSource _ _).trans hacc) rfl
    have htopic : (r.notify p.guidPrefix g sn src).reader.topic = r.topic :=
      congrArg ReaderConfig.topic hsame.cfg
    have hown : (p.notifyReliableReaders g sn src).1.ownershipAllows r.topic
        (remoteDispatch g sn payload ts now).source = p.ownershipAllows r.topic g := rfl
    rw [heq, nil_append, payloadsFor_append, hnone, nil_append, payloadsFor,
      dispatchToReaders_filter, get?_notifyReliableReaders, hr, map_some, map_some,
      getD_some, hoffer, htopic, hown]
    by_cases howns : p.ownershipAllows r.topic g
    · rw [if_pos howns, if_pos ⟨howns, hnot⟩]
      rfl
    · rw [if_neg howns, if_neg fun h => howns h.1]
      rfl

end Participant

/-- A payload is within the writer's fragment size, and its DATA submessage within the 16-bit length
field. -/
def Writer.Fits (w : Writer) (payload : Bytes) : Prop :=
  (payload.length : Int) + 4 ≤ w.fragmentSize ∧ payload.length + 24 < 65536
  deriving Decidable

theorem Writer.messages_of_fits (h : w.Fits payload) (own : GuidPrefix) (sn : SequenceNumber)
    (now : Int) : w.messages own sn now payload = some [dataMessage own w.eid sn now payload] := by
  have hlen := length_cdrWrapPayload payload
  have hsize := h.1
  rw [Writer.messages, if_neg (by omega)]

namespace Participant

theorem short_of_not_fits (hfit : ¬ w.Fits payload) (hsec : cfg.security = none)
    (hne : sender ≠ cfg.guidPrefix) {n : SequenceNumber} {msgs : List Bytes}
    (hmsgs : w.messages sender n now payload = some msgs) {pkt : Packet} (hpkt : pkt.data ∈ msgs)
    (hi : i ∈ inputsOf cfg pkt) {payload' : Bytes} (ha : i.action = .data g sn payload' ts) :
    payload'.length < payload.length := by
  obtain ⟨data, src, clock⟩ := pkt
  have hwrap := length_cdrWrapPayload payload
  unfold Writer.messages at hmsgs
  by_cases hfrag : ((cdrWrapPayload payload).length : Int) > w.fragmentSize
  · rw [if_pos hfrag] at hmsgs
    obtain ⟨frags, hfrags, rfl⟩ := map_eq_some_iff.1 hmsgs
    obtain ⟨f, hf, rfl⟩ := List.mem_map.1 hpkt
    obtain ⟨hreader, hsize, hlen⟩ := splitIntoFragmentsN_spec w.fragmentSize_pos hfrags hf
    have hshort := short_of_dataFrag hsec hne hreader hlen hi ha
    omega
  · rw [if_neg hfrag] at hmsgs
    obtain rfl := some.inj hmsgs
    obtain rfl := mem_singleton.1 hpkt
    have hlong : 65536 ≤ payload.length + 24 := by
      by_contra hlt
      exact hfit ⟨by omega, by omega⟩
    exact short_of_data hsec hne hlong hi ha

theorem payloadsFor_heartbeats (hne : sender ≠ cfg.guidPrefix) {pkts : List Packet}
    (h : ∀ pkt ∈ pkts, ∃ hb, pkt.data = (heartbeat hb).bytes sender) (p : Participant)
    (eid : EntityId) : payloadsFor eid (Run.run act p (pkts.flatMap (inputsOf cfg))).2 = [] := by
  refine eq_nil_iff_forall_not_mem.2 fun payload hpay => ?_
  obtain ⟨i, hi, g, sn, ts, ha⟩ := payloadsFor_run hpay
  obtain ⟨⟨data, src, now⟩, hpkt, hi⟩ := mem_flatMap.1 hi
  obtain ⟨hb, hdata⟩ := h _ hpkt
  dsimp only at hdata
  rw [hdata, inputsOf_heartbeat hne] at hi
  obtain rfl := mem_singleton.1 hi
  cases ha

/-- The matched reader of the destination gets exactly the written payload, once, if and only if the
payload fits one DATA submessage (in the writer's fragment size and in the 16-bit length field),
ownership lets the writer through, and the receiver does not run into the loop that never ends. -/
theorem delivery_iff (s q : Participant) (w : Writer) (payload rnd : Bytes) (now : Int)
    (dst : UDPAddr) (pkts : List Packet) (eid : EntityId) (r : Reader)
    (haccepted : (s.write w payload rnd now).error = none) (hsec : s.security = none)
    (hreach : s.Reaches w.config dst payload) (hpkts : pkts.map Packet.data =
      messagesTo s.guidPrefix dst (s.write w payload rnd now).effects)
    (hne : s.guidPrefix ≠ q.guidPrefix) (hsec' : q.security = none) (hreplay : q.antiReplay = none)
    (hstuck : q.stuck = false) (hr : q.readers.get? eid = some r) (hready : r.Ready)
    (hmatched : r.acceptsSource q.guidPrefix ⟨s.guidPrefix, w.eid⟩ = true)
    (honly : q.OnlyReader eid ⟨s.guidPrefix, w.eid⟩) :
    payloadsFor eid (q.receive pkts).2 = [payload] ↔
      w.Fits payload ∧ q.ownershipAllows r.topic ⟨s.guidPrefix, w.eid⟩ = true ∧
        ¬ r.Loops ⟨s.guidPrefix, w.eid⟩ (w.seq + 1) := by
  obtain ⟨msgs, beats, hmsgs, hsent, hbeats⟩ := messagesTo_write hsec haccepted dst
  rw [hsent, messagesTo_sendSample hreach] at hpkts
  obtain ⟨ps, bs, rfl, hps, hbs⟩ := map_eq_append_iff.1 hpkts
  have hbeat : ∀ pkt ∈ bs, ∃ hb, pkt.data = (heartbeat hb).bytes s.guidPrefix :=
    fun pkt hpkt => hbeats _ (hbs ▸ List.mem_map_of_mem hpkt)
  rw [receive_eq_run, flatMap_append, Run.run_append, payloadsFor_append,
    payloadsFor_heartbeats hne hbeat, append_nil]
  by_cases hfit : w.Fits payload
  · -- one DATA message
    have hone := Writer.messages_of_fits (w := { w with seq := w.seq + 1 }) hfit s.guidPrefix
      (u64ToSN (w.seq + 1)) now
    obtain rfl := some.inj (hone.symm.trans hmsgs)
    obtain ⟨⟨data, src, clock⟩, rest, rfl, hdata, hrest⟩ := map_eq_cons_iff.1 hps
    obtain rfl := map_eq_nil_iff.1 hrest
    dsimp only at hdata
    have hopen : openPayload q.config payload = some payload := by
      rw [openPayload, hsec']
    rw [flatMap_singleton, hdata, inputsOf_data hne _ _ _ hfit.2, hopen, map_some,
      toList_some, Run.run_singleton, snToU64_u64ToSN,
      payloadsFor_data hstuck hreplay hr hready hne hmatched honly]
    by_cases hgo : q.ownershipAllows r.topic ⟨s.guidPrefix, w.eid⟩ = true ∧
        ¬ r.Loops ⟨s.guidPrefix, w.eid⟩ (w.seq + 1)
    · rw [if_pos hgo]
      exact ⟨fun _ => ⟨hfit, hgo⟩, fun _ => rfl⟩
    · rw [if_neg hgo]
      exact ⟨fun h => (cons_ne_nil _ _ h.symm).elim, fun h => absurd h.2 hgo⟩
  · refine ⟨fun h => ?_, fun h => absurd h.1 hfit⟩
    have hmem : payload ∈ payloadsFor eid
        (Run.run act q (ps.flatMap (inputsOf q.config))).2 := by
      rw [h]
      exact mem_singleton_self payload
    obtain ⟨i, hi, g, sn, ts, ha⟩ := payloadsFor_run hmem
    obtain ⟨pkt, hpkt, hi⟩ := mem_flatMap.1 hi
    have hshort := short_of_not_fits (w := { w with seq := w.seq + 1 }) hfit hsec' hne hmsgs
      (hps ▸ List.mem_map_of_mem hpkt) hi ha
    exact absurd hshort (lt_irrefl _)

def packetsOf (l : Link) (payload : Bytes) : List Packet :=
  (messagesTo l.sender.guidPrefix ⟨[0, 0, 0, 0], 7411⟩
    (l.sender.write (Writer.new reliableWriter) payload [] 0).effects).map fun b => ⟨b, none, 0⟩

theorem delivery_small :
    let l := Link.oneReader (copy 12 [1]) (copy 12 [2])
    payloadsFor (entityIdForReader 1) (l.receiver.receive (packetsOf l [7])).2 = [[7]] := by
  intro l
  refine (delivery_iff l.sender l.receiver (Writer.new reliableWriter) [7] [] 0
    ⟨[0, 0, 0, 0], 7411⟩ _ _ _ ?_ rfl ⟨⟨_, rfl, rfl⟩⟩ ?_ (by decide) rfl rfl rfl
    rfl ⟨rfl, rfl, rfl, ?_, ?_⟩ ?_ ?_).2 ⟨?_, ?_, ?_⟩
  · decide +kernel
  · rw [packetsOf, List.map_map]
    exact List.map_id _
  · decide +kernel
  · decide +kernel
  · decide +kernel
  · intro r hmem _
    obtain rfl := mem_singleton.1 hmem
    rfl
  all_goals decide +kernel

/-- Three fragments, no delivery. -/
theorem delivery_fragmented :
    let l := Link.oneReader (copy 12 [1]) (copy 12 [2])
    let payload : Bytes := List.replicate 1197 7
    (l.sender.write (Writer.new reliableWriter) payload [] 0).error = none ∧
      (packetsOf l payload).length = 3 ∧
      payloadsFor (entityIdForReader 1) (l.receiver.receive (packetsOf l payload)).2 = [] := by
  decide +kernel

end Participant

end GoDDS
