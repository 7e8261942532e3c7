import GoDDS.Rtps.Delivery
import GoDDS.Rtps.Tracking

/-!
# Recovery of lost samples

A writer has published `1..n`, each in one message, and a reader anchored at 1 has some of them.
-/

namespace GoDDS

open ByteCodec Go Security Watermark SendHistory UInt64 RecvTracker ParticipantConfig Run Registry
open List hiding lt_irrefl

/-! ## What the history holds -/

variable {msg : Bytes} {own sender : GuidPrefix} {k : UInt64}

namespace Writer

/-- A writer after `n` writes, each one message that fits a datagram, and any heartbeats and
acknowledgements. -/
inductive Published (own : GuidPrefix) (cfg : WriterConfig) : ℕ → Writer → Prop
  | new : Published own cfg 0 (Writer.new cfg)
  | write {n : ℕ} {w : Writer} (h : Published own cfg n w) (now : Int) (wire : Bytes)
      (hfits : (dataMessage own cfg.eid (u64ToSN (w.seq + 1)) now wire).length ≤ maxDatagram) :
      Published own cfg (n + 1) ({ w with seq := w.seq + 1 }.keep
        [dataMessage own cfg.eid (u64ToSN (w.seq + 1)) now wire]).announced
  | announced {n : ℕ} {w : Writer} (h : Published own cfg n w) : Published own cfg n w.announced
  | acked {n : ℕ} {w : Writer} (h : Published own cfg n w) (b : UInt64) :
      Published own cfg n (w.advanceAcked b)

/-- A message with this sample and no other. -/
def Carries (own : GuidPrefix) (eid : EntityId) (k : UInt64) (msg : Bytes) : Prop :=
  ∃ t wire, msg = dataMessage own eid (u64ToSN k) t wire ∧ msg.length ≤ maxDatagram

structure HoldsSamples (own : GuidPrefix) (eid : EntityId) (n : ℕ) (h : SendHistory) : Prop where
  any : h.any = decide (0 < n)
  lowest : 0 < n → h.lowest = 1
  highest : 0 < n → h.highest.toNat = n
  kept : ∀ k : UInt64, 1 ≤ k.toNat → k.toNat ≤ n →
    ∃ msg, h.ring (SendHistory.slot k) = some (k, msg) ∧ Carries own eid k msg

variable {own : GuidPrefix} {cfg : WriterConfig} {n : ℕ} {w : Writer} {eid : EntityId}
  {h : SendHistory}

theorem HoldsSamples.get (hh : HoldsSamples own eid n h) (hk : 1 ≤ k.toNat) (hkn : k.toNat ≤ n) :
    ∃ msg, h.get k = some msg ∧ Carries own eid k msg := by
  obtain ⟨msg, hring, hcarries⟩ := hh.kept k hk hkn
  have hpos : 0 < n := by omega
  refine ⟨msg, get_eq_some.2 ⟨by simp [hh.any, hpos], ?_, ?_, hring⟩, hcarries⟩
  · rw [hh.lowest hpos, le_iff_toNat_le]
    exact hk
  · rw [le_iff_toNat_le, hh.highest hpos]
    exact hkn

theorem HoldsSamples.range_of_get (hh : HoldsSamples own eid n h) (hget : h.get k = some msg) :
    1 ≤ k.toNat ∧ k.toNat ≤ n := by
  obtain ⟨hany, hlow, hhigh, -⟩ := get_eq_some.1 hget
  rw [hh.any, decide_eq_true_iff] at hany
  rw [hh.lowest hany, le_iff_toNat_le] at hlow
  rw [le_iff_toNat_le, hh.highest hany] at hhigh
  exact ⟨hlow, hhigh⟩

theorem HoldsSamples.carries_of_get (hh : HoldsSamples own eid n h) (hget : h.get k = some msg) :
    Carries own eid k msg := by
  obtain ⟨hk, hkn⟩ := hh.range_of_get hget
  obtain ⟨msg', hget', hcarries⟩ := hh.get hk hkn
  rw [Option.some.inj (hget.symm.trans hget')]
  exact hcarries

theorem slot_ne {j : UInt64} (hj : 1 ≤ j.toNat) (hjk : j.toNat < k.toNat) (hk : k.toNat ≤ 256) :
    slot j ≠ slot k := by
  intro heq
  have hmod : j.toNat % 256 = k.toNat % 256 := congrArg Fin.val heq
  omega

theorem HoldsSamples.store (hh : HoldsSamples own eid n h) (hn : n < 256) (hk : k.toNat = n + 1)
    (hmsg : Carries own eid k msg) : HoldsSamples own eid (n + 1) (h.store k msg) := by
  have hle : h.any = true → h.highest ≤ k := fun hany => by
    rw [hh.any, decide_eq_true_iff] at hany
    rw [le_iff_toNat_le, hh.highest hany]
    omega
  have hhigh := highest_store msg hle
  have hlow : (h.store k msg).lowest = 1 := by
    rw [← UInt64.toNat_inj, SendHistory.lowest_store msg hle, hk, hh.any]
    by_cases hpos : 0 < n
    · rw [if_pos (decide_eq_true hpos), hh.lowest hpos]
      show max 1 (n + 1 - 255) = 1
      omega
    · rw [if_neg (by simpa using hpos), hk]
      show max (n + 1) (n + 1 - 255) = 1
      omega
  refine ⟨by simp [SendHistory.store], fun _ => hlow, fun _ => by rw [hhigh, hk], ?_⟩
  intro j hj hjn
  by_cases hjk : j = k
  · subst hjk
    exact ⟨msg, by simp [store], hmsg⟩
  · have hlt : j.toNat < k.toNat := by
      have hne : j.toNat ≠ k.toNat := fun heq => hjk (UInt64.toNat_inj.1 heq)
      omega
    obtain ⟨m, hring, hcarries⟩ := hh.kept j hj (by omega)
    refine ⟨m, ?_, hcarries⟩
    simp only [SendHistory.store, Function.update_of_ne (slot_ne hj hlt (by omega))]
    exact hring

theorem history_announced (w : Writer) :
    w.announced.history.any = w.history.any ∧ w.announced.history.lowest = w.history.lowest ∧
      w.announced.history.highest = w.history.highest ∧
      w.announced.history.ring = w.history.ring ∧ w.announced.seq = w.seq := by
  unfold announced heartbeat
  split_ifs
  · cases w.history.firstLast <;> exact ⟨rfl, rfl, rfl, rfl, rfl⟩
  · exact ⟨rfl, rfl, rfl, rfl, rfl⟩

theorem HoldsSamples.announced (hh : HoldsSamples own eid n w.history) :
    HoldsSamples own eid n w.announced.history := by
  obtain ⟨hany, hlow, hhigh, hring, -⟩ := history_announced w
  refine ⟨hany.trans hh.any, fun hn => hlow.trans (hh.lowest hn),
    fun hn => (congrArg _ hhigh).trans (hh.highest hn), ?_⟩
  rw [hring]
  exact hh.kept

theorem Published.config (hp : Published own cfg n w) : w.config = cfg := by
  induction hp with
  | new => rfl
  | write h now wire hfits ih => rw [announced_config, keep_config, ← ih]
  | announced h ih => rw [announced_config, ih]
  | acked h b ih => rw [advanceAcked_config, ih]

theorem Published.seq (hp : Published own cfg n w) (hn : n < 2 ^ 64) : w.seq.toNat = n := by
  induction hp with
  | new => rfl
  | @write n w h now wire hfits ih =>
    have hkeep : ({ w with seq := w.seq + 1 }.keep
        [dataMessage own cfg.eid (u64ToSN (w.seq + 1)) now wire]).seq = w.seq + 1 := by
      unfold keep
      split_ifs <;> rfl
    rw [(history_announced _).2.2.2.2, hkeep, UInt64.toNat_add, ih (by omega)]
    exact Nat.mod_eq_of_lt hn
  | announced h ih => rw [(history_announced _).2.2.2.2, ih hn]
  | acked h b ih => rw [advanceAcked_seq, ih hn]

theorem Published.holdsSamples (hp : Published own cfg n w) (hrel : cfg.reliable)
    (hn : n ≤ 256) : HoldsSamples own cfg.eid n w.history := by
  induction hp with
  | new =>
    exact ⟨rfl, fun h => absurd h (lt_irrefl 0), fun h => absurd h (lt_irrefl 0),
      fun k hk hk' => by omega⟩
  | @write n w h now wire hfits ih =>
    have hseq := h.seq (by omega)
    have hsucc : (w.seq + 1).toNat = n + 1 := by
      rw [UInt64.toNat_add, hseq]
      show (n + 1) % 2 ^ 64 = n + 1
      omega
    refine HoldsSamples.announced ?_
    have hkeep : ({ w with seq := w.seq + 1 }.keep
        [dataMessage own cfg.eid (u64ToSN (w.seq + 1)) now wire]).history =
        w.history.store (w.seq + 1) (dataMessage own cfg.eid (u64ToSN (w.seq + 1)) now wire) := by
      rw [keep, if_pos (h.config ▸ hrel)]
      rfl
    rw [hkeep]
    exact (ih (by omega)).store (by omega) hsucc ⟨now, wire, rfl, hfits⟩
  | announced h ih => exact (ih hn).announced
  | acked h b ih =>
    rw [advanceAcked_history]
    exact ih hn

end Writer

namespace Participant

open Writer

theorem published_writeBy {s : Participant} {cfg : WriterConfig} {n : ℕ} {w : Writer}
    (hw : s.writers.get? w.eid = some w) (hp : Published s.guidPrefix cfg n w)
    {payload rnd : Bytes} {now : Int} (hok : (s.write w payload rnd now).error = none)
    (hone : ∀ wire, sealPayload s.config rnd payload = some wire →
      ((cdrWrapPayload wire).length : Int) ≤ w.fragmentSize ∧
        (dataMessage s.guidPrefix cfg.eid (u64ToSN (w.seq + 1)) now wire).length ≤ maxDatagram) :
    ∃ w', (s.writeBy w.eid payload rnd now).1.writers.get? w.eid = some w' ∧
      Published s.guidPrefix cfg (n + 1) w' := by
  unfold writeBy
  rw [hw]
  rcases write_cases s w payload rnd now with ⟨e, he⟩ | ⟨e, he⟩ | ⟨wire, msgs, hseal, hmsgs, he⟩
  · rw [he] at hok
    cases hok
  · rw [he] at hok
    cases hok
  · obtain ⟨hsmall, hfits⟩ := hone wire hseal
    have hsingle : msgs = [dataMessage s.guidPrefix cfg.eid (u64ToSN (w.seq + 1)) now wire] := by
      have hcfg := hp.config
      have hnot : ¬ ((cdrWrapPayload wire).length : Int) >
          fragmentSize { w with seq := w.seq + 1 } := Int.not_lt.2 hsmall
      unfold messages at hmsgs
      rw [if_neg hnot] at hmsgs
      rw [← Option.some.inj hmsgs, ← hcfg]
    dsimp only
    rw [he]
    refine ⟨_, (get?_publish _ _ _ _ _ _).trans (if_pos rfl), ?_⟩
    rw [hsingle]
    exact hp.write now wire hfits

/-! ## Rounds -/

def samplesIn (own : GuidPrefix) (msg : Bytes) : List (GUID × UInt64) :=
  match submessagesOf own msg with
  | none => []
  | some (sender, subs) =>
    subs.filterMap fun sub =>
      if sub.id = submsgDATA then
        (parseDataSubmessage (flagEndianness ||| flagData) sub.body).map fun ds =>
          (⟨sender, ds.writerEntityId⟩, snToU64 ds.seqNum)
      else none

/-- The readers are told of the samples of a message. -/
def arrive (src : UDPAddr) (p : Participant) (msg : Bytes) : Participant :=
  (samplesIn p.guidPrefix msg).foldl
    (fun p sample => (p.notifyReliableReaders sample.1 sample.2 (some src)).1) p

/-- A round between the participants of `g` and of its readers: HEARTBEAT, acknowledgements, what is
sent again. -/
def round (g : GUID) (n : ℕ) (sAddr pAddr : UDPAddr) (c : Participant × Participant)
    (tick : Int32 × Int) : (Participant × Participant) × List Effect :=
  let asked := hear g n sAddr c.2 (.heartbeat tick.1 tick.2)
  let acks := messagesTo c.2.guidPrefix sAddr asked.2
  let sent := c.1.receive (acks.map fun b => ⟨b, some pAddr, tick.2⟩)
  ((sent.1, (messagesTo c.1.guidPrefix pAddr sent.2).foldl (arrive sAddr) asked.1),
    asked.2 ++ sent.2)

theorem samplesIn_wrapInRTPSMessage (h : sender ≠ own) (b : Bytes) :
    samplesIn own (wrapInRTPSMessage sender b) = (parseSubmessages b).1.filterMap fun sub =>
        if sub.id = submsgDATA then
          (parseDataSubmessage (flagEndianness ||| flagData) sub.body).map fun ds =>
            (⟨sender, ds.writerEntityId⟩, snToU64 ds.seqNum) else none := by
  rw [samplesIn, submessagesOf_wrapInRTPSMessage h]

theorem samplesIn_of_carries (h : sender ≠ own) {eid : EntityId} (hmsg : Carries sender eid k msg) :
    samplesIn own msg = [(⟨sender, eid⟩, k)] := by
  obtain ⟨t, wire, rfl, hlen⟩ := hmsg
  have hne : cdrWrapPayload wire ≠ [] := by
    intro hnil
    have hwrap := length_cdrWrapPayload wire
    rw [hnil] at hwrap
    simp at hwrap
  have hbody : (dataBody eid entityIdUnknown (u64ToSN k) (cdrWrapPayload wire)).length < 65536 := by
    simp only [dataMessage, wrapInRTPSMessage, marshalInfoTS, marshalDataSubmessage, frame,
      length_append, length_cons, maxDatagram] at hlen
    omega
  have hdata := parseSubmessages_frame submsgDATA (flagEndianness ||| flagData) _ [] (by decide)
    hbody
  rw [append_nil, parseSubmessages_nil] at hdata
  have hts := parseSubmessages_frame submsgINFO_TS flagEndianness (infoTSBody t)
    (marshalDataSubmessage eid entityIdUnknown (u64ToSN k) (cdrWrapPayload wire)) (by decide)
    (by rw [length_infoTSBody]; decide)
  have hnots : ¬ submsgINFO_TS = submsgDATA := by decide
  rw [dataMessage, samplesIn_wrapInRTPSMessage h, marshalInfoTS, hts, marshalDataSubmessage, hdata,
    filterMap_cons, if_neg hnots, filterMap_cons, if_pos rfl,
    parseDataSubmessage_dataBody _ _ _ hne]
  simp [snToU64_u64ToSN]

theorem samplesIn_gap (h : sender ≠ own) (gap : Gap) :
    samplesIn own ((Outgoing.gap gap).bytes sender) = [] := by
  have hparse := parseSubmessages_frame submsgGAP flagEndianness (gapBody gap) [] (by decide)
    (by rw [length_gapBody]; decide)
  have hid : ¬ submsgGAP = submsgDATA := by decide
  rw [append_nil, parseSubmessages_nil] at hparse
  rw [Outgoing.bytes, samplesIn_wrapInRTPSMessage h, marshalGAP, hparse, filterMap_cons, if_neg hid]
  rfl

/-! ### The writer's side -/

/-- The participant of a writer that has published `1..n` and knows a reader at `pAddr`. -/
structure Sends (s : Participant) (cfg : WriterConfig) (n : ℕ) (pAddr : UDPAddr) : Prop where
  running : s.stuck = false
  writer : ∃ w, s.writers.get? cfg.eid = some w ∧ Published s.guidPrefix cfg n w
  matched : ∃ lm ∈ s.matchedReaderLocators cfg.topic cfg.qos.partition, lm.loc.udpAddr = some pAddr

variable {s p : Participant} {cfg : WriterConfig} {n : ℕ} {sAddr pAddr : UDPAddr}

theorem Sends.act (h : Sends s cfg n pAddr) (q : GUID) (an : AckNack) (src : Option UDPAddr)
    (now : Int) : Sends (s.act ⟨.ackNack q an, src, now⟩).1 cfg n pAddr := by
  have hsame := sameSetup_act s ⟨.ackNack q an, src, now⟩
  have hpfx := congrArg guidPrefix hsame.cfg
  obtain ⟨w, hget, hp⟩ := h.writer
  have heid : w.eid = cfg.eid := congrArg WriterConfig.eid hp.config
  refine ⟨?_, ?_, ?_⟩
  · rw [act_ackNack h.running]
    unfold handleAckNack
    split
    · exact h.running
    · split_ifs <;> exact h.running
  · obtain ⟨w', hget', hmove⟩ := act_writer (heid ▸ hget) ⟨.ackNack q an, src, now⟩
    rw [heid] at hget'
    refine ⟨w', hget', ?_⟩
    rw [hpfx]
    cases hmove with
    | same heq => exact heq ▸ hp
    | announced heq => exact heq ▸ hp.announced
    | numbered payload rnd now hop heq => cases hop
    | published payload rnd now wire msgs hop hmsgs heq => cases hop
    | acknowledged q an src now hop hw hrel heq => exact heq ▸ hp.acked _
  · obtain ⟨lm, hlm, haddr⟩ := h.matched
    refine ⟨lm, ?_, haddr⟩
    unfold matchedReaderLocators at hlm ⊢
    rw [hsame.sedp]
    exact hlm

theorem Sends.resends (h : Sends s cfg n pAddr) (hrel : cfg.reliable) (hn : n ≤ 256)
    {an : AckNack} (han : an.writerEntityId = cfg.eid)
    (hreq : RecvTracker.Requests (snToU64 an.base) an.bitmap k) (hk : 1 ≤ k.toNat)
    (hkn : k.toNat ≤ n) (q : GUID) (src : Option UDPAddr) (now : Int) :
    ∃ peer msg, Effect.unicast pAddr peer (.message msg) ∈ (s.act ⟨.ackNack q an, src, now⟩).2 ∧
      Carries s.guidPrefix cfg.eid k msg := by
  obtain ⟨w, hget, hp⟩ := h.writer
  obtain ⟨lm, hlm, haddr⟩ := h.matched
  obtain ⟨msg, hmsg, hcarries⟩ := (hp.holdsSamples hrel hn).get hk hkn
  obtain ⟨bit, hbit, hset, rfl⟩ := hreq
  have hcfg := hp.config
  refine ⟨lm.guidPrefix, msg, ?_, hcarries⟩
  rw [act_ackNack h.running, handleAckNack, han, hget]
  have hrel' : ¬ (!w.reliable) = true := by
    rw [hcfg, hrel]
    decide
  dsimp only
  rw [if_neg hrel']
  refine mem_append_left _ (mem_flatMap.2 ⟨bit, mem_range.2 hbit, ?_⟩)
  rw [if_pos hset, hmsg, hcfg]
  exact mem_filterMap.2 ⟨lm, hlm, by rw [haddr]; rfl⟩

theorem Sends.sends_only (h : Sends s cfg n pAddr) (hrel : cfg.reliable) (hn : n ≤ 256)
    {an : AckNack} (han : an.writerEntityId = cfg.eid) {q : GUID} {src : Option UDPAddr} {now : Int}
    {e : Effect} (he : e ∈ (s.act ⟨.ackNack q an, src, now⟩).2) :
    ∃ dst peer out, e = .unicast dst peer out ∧ ((∃ gap, out = .gap gap) ∨
      ∃ k msg, out = .message msg ∧ 1 ≤ k.toNat ∧ k.toNat ≤ n ∧
        Carries s.guidPrefix cfg.eid k msg) := by
  obtain ⟨w, hget, hp⟩ := h.writer
  rw [act_ackNack h.running] at he
  obtain ⟨w', dst, peer, hget', hcase⟩ := handleAckNack_effects he
  rw [han] at hget'
  obtain rfl := Option.some.inj (hget.symm.trans hget')
  have hholds := hp.holdsSamples hrel hn
  rcases hcase with ⟨k, msg, hmsg, rfl⟩ | ⟨gap, -, rfl⟩
  · obtain ⟨hk, hkn⟩ := hholds.range_of_get hmsg
    exact ⟨dst, peer, _, rfl, .inr ⟨k, msg, rfl, hk, hkn, hholds.carries_of_get hmsg⟩⟩
  · exact ⟨dst, peer, _, rfl, .inl ⟨gap, rfl⟩⟩

theorem Sends.run (h : Sends s cfg n pAddr) (hrel : cfg.reliable) (hn : n ≤ 256)
    {is : List Input}
    (his : ∀ i ∈ is, ∃ q an, i.action = .ackNack q an ∧ an.writerEntityId = cfg.eid) :
    Sends (run Participant.act s is).1 cfg n pAddr ∧
      (∀ e ∈ (run Participant.act s is).2, ∃ dst peer out, e = .unicast dst peer out ∧
        ((∃ gap, out = .gap gap) ∨ ∃ k msg, out = .message msg ∧ 1 ≤ k.toNat ∧ k.toNat ≤ n ∧
          Carries s.guidPrefix cfg.eid k msg)) ∧
      ∀ i ∈ is, ∀ q an, i.action = .ackNack q an → ∀ k : UInt64,
        RecvTracker.Requests (snToU64 an.base) an.bitmap k → 1 ≤ k.toNat → k.toNat ≤ n →
        ∃ peer msg, Effect.unicast pAddr peer (.message msg) ∈ (run Participant.act s is).2 ∧
          Carries s.guidPrefix cfg.eid k msg := by
  induction is generalizing s with
  | nil => exact ⟨h, fun e he => absurd he not_mem_nil, fun i hi => absurd hi not_mem_nil⟩
  | cons i is ih =>
    obtain ⟨q, an, hact, han⟩ := his i mem_cons_self
    obtain ⟨a, src, now⟩ := i
    obtain rfl : a = .ackNack q an := hact
    have hpfx := congrArg guidPrefix
      (sameSetup_act s ⟨.ackNack q an, src, now⟩).cfg
    obtain ⟨hsends, honly, hresends⟩ :=
      ih (h.act q an src now) fun j hj => his j (mem_cons_of_mem _ hj)
    rw [hpfx] at honly hresends
    rw [run_cons]
    refine ⟨hsends, fun e he => ?_, fun j hj q' an' hj' k hreq hk hkn => ?_⟩
    · rcases mem_append.1 he with he | he
      · exact h.sends_only hrel hn han he
      · exact honly e he
    · rcases mem_cons.1 hj with rfl | hj
      · obtain ⟨rfl, rfl⟩ := Action.ackNack.inj hj'
        obtain ⟨peer, msg, he, hcarries⟩ := h.resends hrel hn han hreq hk hkn q src now
        exact ⟨peer, msg, mem_append_left _ he, hcarries⟩
      · obtain ⟨peer, msg, he, hcarries⟩ := hresends j hj q' an' hj' k hreq hk hkn
        exact ⟨peer, msg, mem_append_right _ he, hcarries⟩

variable {g : GUID} {r : Reader} {S : Finset ℕ}

def BringsSample (own : GuidPrefix) (g : GUID) (n : ℕ) (msg : Bytes) : Prop :=
  samplesIn own msg = [] ∨ ∃ k : UInt64, samplesIn own msg = [(g, k)] ∧ 1 ≤ k.toNat ∧ k.toNat ≤ n

theorem guidPrefix_arrive (src : UDPAddr) (p : Participant) (msg : Bytes) :
    (arrive src p msg).guidPrefix = p.guidPrefix := by
  unfold arrive
  generalize samplesIn p.guidPrefix msg = samples
  induction samples generalizing p with
  | nil => rfl
  | cons sample samples ih => exact ih _

theorem Listens.arrive (h : Listens p g r) (hn : n ≤ 8192) (hS : ∀ k ∈ S, k ≤ n)
    (htr : (r.trackerFor g).Tracks 1 S) (src : UDPAddr) {msgs : List Bytes}
    (hmsgs : ∀ msg ∈ msgs, BringsSample p.guidPrefix g n msg) :
    ∃ r' S', Listens (msgs.foldl (arrive src) p) g r' ∧ r'.eid = r.eid ∧
      (r'.trackerFor g).Tracks 1 S' ∧ S ⊆ S' ∧ (∀ k ∈ S', k ≤ n) ∧
      ∀ msg ∈ msgs, ∀ k, samplesIn p.guidPrefix msg = [(g, k)] → k.toNat ∈ S' := by
  induction msgs generalizing p r S with
  | nil => exact ⟨r, S, h, rfl, htr, subset_rfl, hS, fun msg hmsg => absurd hmsg not_mem_nil⟩
  | cons msg msgs ih =>
    have hpfx := guidPrefix_arrive src p msg
    have hrest : ∀ m ∈ msgs, BringsSample (arrive src p msg).guidPrefix g n m :=
      fun m hm => hpfx ▸ hmsgs m (mem_cons_of_mem _ hm)
    rw [foldl_cons]
    rcases hmsgs msg mem_cons_self with hnone | ⟨k, hone, hk, hkn⟩
    · have hsame : arrive src p msg = p := by
        rw [arrive, hnone]
        rfl
      rw [hsame] at hrest ⊢
      obtain ⟨r', S', hl, heid, htr', hsub, hS', hin⟩ := ih h hS htr hrest
      refine ⟨r', S', hl, heid, htr', hsub, hS', fun m hm k hk => ?_⟩
      rcases mem_cons.1 hm with rfl | hm
      · rw [hnone] at hk
        cases hk
      · exact hin m hm k hk
    · have htold : Participant.arrive src p msg = (Participant.hear g n src p (.data k)).1 := by
        rw [Participant.arrive, hone]
        rfl
      rw [htold] at hrest hpfx ⊢
      obtain ⟨r₁, hl₁, heid₁, hwin, -⟩ := h.hear n src (.data k)
      have htr₁ := hwin.tracks (htr.record hn hS hkn)
      have hS₁ : ∀ j ∈ insert k.toNat S, j ≤ n := fun j hj =>
        (Finset.mem_insert.1 hj).elim (fun heq => heq ▸ hkn) (hS j)
      obtain ⟨r', S', hl, heid, htr', hsub, hS', hin⟩ := ih hl₁ hS₁ htr₁ hrest
      refine ⟨r', S', hl, heid.trans heid₁, htr', (Finset.subset_insert _ _).trans hsub, hS',
        fun m hm j hj => ?_⟩
      rcases mem_cons.1 hm with rfl | hm
      · rw [hone] at hj
        obtain ⟨-, rfl⟩ := Prod.mk.inj (List.cons.inj hj).1
        exact hsub (Finset.mem_insert_self _ _)
      · exact hin m hm j (hpfx ▸ hj)

/-! ### Both sides -/

theorem round_progress (sAddr : UDPAddr) (hne : s.guidPrefix ≠ p.guidPrefix)
    (hg : g = ⟨s.guidPrefix, cfg.eid⟩)
    (hs : Sends s cfg n pAddr) (hrel : cfg.reliable) (hn : n ≤ 256) (hl : Listens p g r)
    (htr : (r.trackerFor g).Tracks 1 S) (hS : ∀ k ∈ S, k ≤ n) (tick : Int32 × Int) :
    let c := (round g n sAddr pAddr (s, p) tick).1
    c.1.guidPrefix = s.guidPrefix ∧ c.2.guidPrefix = p.guidPrefix ∧ Sends c.1 cfg n pAddr ∧
      ∃ r' S', Listens c.2 g r' ∧ r'.eid = r.eid ∧ (r'.trackerFor g).Tracks 1 S' ∧
        (∀ k ∈ S', k ≤ n) ∧ min (watermark 1 S + 32) (n + 1) ≤ watermark 1 S' := by
  intro c
  have hn' : n ≤ 8192 := hn.trans (by decide)
  obtain ⟨r₁, hl₁, heid₁, hwin, hasks⟩ := hl.hear n sAddr (.heartbeat tick.1 tick.2)
  rw [WriterMessage.tell, initExpected_of_initDone htr.initDone] at hwin
  have htr₁ := hwin.tracks htr
  set asked := hear g n sAddr p (.heartbeat tick.1 tick.2) with hasked
  have hpfx : asked.1.guidPrefix = p.guidPrefix := rfl
  -- the writer's participant reads the acknowledgements it is sent
  set pkts : List Packet := (messagesTo p.guidPrefix sAddr asked.2).map fun b =>
    ⟨b, some pAddr, tick.2⟩ with hpkts
  have hread : ∀ an, (Outgoing.ackNack an).bytes p.guidPrefix ∈
      messagesTo p.guidPrefix sAddr asked.2 →
      Input.mk (.ackNack ⟨p.guidPrefix, an.readerEntityId⟩ an) (some pAddr) tick.2 ∈
        pkts.flatMap (inputsOf s.config) := by
    intro an han
    refine mem_flatMap.2 ⟨_, List.mem_map_of_mem han, ?_⟩
    rw [inputsOf_ackNack hne.symm]
    exact mem_singleton_self _
  have hinputs : ∀ i ∈ pkts.flatMap (inputsOf s.config),
      ∃ q an, i.action = .ackNack q an ∧ an.writerEntityId = cfg.eid := by
    intro i hi
    obtain ⟨pkt, hpkt, hi⟩ := mem_flatMap.1 hi
    obtain ⟨b, hb, rfl⟩ := List.mem_map.1 hpkt
    rcases mem_messagesTo hb with ⟨peer, out, he, rfl⟩ | ⟨group, he⟩
    · obtain ⟨an, heq, han⟩ := hear_effects he
      cases heq
      rw [inputsOf_ackNack hne.symm] at hi
      rw [mem_singleton.1 hi]
      exact ⟨_, an, rfl, by rw [han, hg]⟩
    · obtain ⟨an, heq, -⟩ := hear_effects he
      cases heq
  obtain ⟨hsends, honly, hresends⟩ := hs.run hrel hn hinputs
  have hsent : s.receive pkts = run act s (pkts.flatMap (inputsOf s.config)) :=
    receive_eq_run s pkts
  rw [← hsent] at hsends honly hresends
  -- the reader's participant records what is sent again
  have hbrings : ∀ msg ∈ messagesTo s.guidPrefix pAddr (s.receive pkts).2,
      BringsSample asked.1.guidPrefix g n msg := by
    intro msg hmsg
    rcases mem_messagesTo hmsg with ⟨peer, out, he, rfl⟩ | ⟨group, he⟩
    · obtain ⟨dst, peer', out', heq, ⟨gap, rfl⟩ | ⟨k, m, rfl, hk, hkn, hcarries⟩⟩ := honly _ he
      · cases heq
        exact .inl (samplesIn_gap hne gap)
      · cases heq
        refine .inr ⟨k, ?_, hk, hkn⟩
        rw [hg]
        exact samplesIn_of_carries hne hcarries
    · obtain ⟨dst, peer', out', heq, -⟩ := honly _ he
      cases heq
  obtain ⟨r', S', hl', heid', htr', hsub, hS', hin⟩ := hl₁.arrive hn' hS htr₁ sAddr hbrings
  have hcfg : c.1.guidPrefix = s.guidPrefix := by
    show (s.receive pkts).1.guidPrefix = _
    rw [hsent]
    exact congrArg guidPrefix (config_run_act s _)
  have hpfx' : c.2.guidPrefix = p.guidPrefix := by
    have hfold : ∀ (msgs : List Bytes) (q : Participant),
        (msgs.foldl (arrive sAddr) q).guidPrefix = q.guidPrefix := by
      intro msgs
      induction msgs with
      | nil => exact fun q => rfl
      | cons msg msgs ih => exact fun q => (ih _).trans (guidPrefix_arrive sAddr q msg)
    exact hfold _ _
  refine ⟨hcfg, hpfx', hsends, r', S', hl', heid'.trans heid₁, htr', hS', ?_⟩
  refine min_le_watermark_window hsub fun i hi hiw hin' => ?_
  by_cases hmem : i ∈ S
  · exact hsub hmem
  -- a missing number of the window is asked for, sent again and recorded
  have hto : (ofNat i).toNat = i := toNat_ofNat_of_le (by omega)
  have hnto : (ofNat n).toNat = n := toNat_ofNat_of_le hn'
  have hone : 1 ≤ n + 1 := Nat.le_add_left 1 n
  have hpos : 1 ≤ i := (le_watermark 1 S).trans hi
  have hexp : (r₁.trackerFor g).expected ≤ ofNat n := by
    rw [le_iff_toNat_le, htr₁.expected, hnto]
    exact hi.trans hin'
  obtain ⟨m, hm, hneed, -⟩ :=
    missing_watermark (htr₁.counted hn' hone hS) htr₁.initDone hexp
  have hreq : RecvTracker.Requests m.base m.bitmap (ofNat i) := by
    refine (htr₁.requests_iff hn' hone hS hm _).2 ⟨?_, ?_, ?_, ?_⟩
    · rwa [hto]
    · rwa [hto, hnto]
    · rw [hto]
      omega
    · rwa [hto]
  obtain ⟨e, he, hask⟩ := (hasks (ofNat i)).2 ⟨m, hm, hneed, hreq⟩
  obtain ⟨an, rfl, han⟩ := hear_effects he
  obtain ⟨-, -, -, hreq'⟩ := hask
  obtain ⟨peer, msg, hmsg, hcarries⟩ := hresends _ (hread an (bytes_mem_messagesTo he)) _ an rfl _
    hreq' (by rwa [hto]) (by rwa [hto])
  rw [← hto]
  refine hin msg (bytes_mem_messagesTo hmsg) _ ?_
  rw [hg]
  exact samplesIn_of_carries hne hcarries

theorem rounds_progress (sAddr : UDPAddr) (hne : s.guidPrefix ≠ p.guidPrefix)
    (hg : g = ⟨s.guidPrefix, cfg.eid⟩)
    (hs : Sends s cfg n pAddr) (hrel : cfg.reliable) (hn : n ≤ 256) (hl : Listens p g r)
    (htr : (r.trackerFor g).Tracks 1 S) (hS : ∀ k ∈ S, k ≤ n) (ticks : ℕ → Int32 × Int) (j : ℕ) :
    let c := states (round g n sAddr pAddr) (s, p) ticks j
    c.1.guidPrefix = s.guidPrefix ∧ c.2.guidPrefix = p.guidPrefix ∧ Sends c.1 cfg n pAddr ∧
      ∃ r' S', Listens c.2 g r' ∧ r'.eid = r.eid ∧ (r'.trackerFor g).Tracks 1 S' ∧
        (∀ k ∈ S', k ≤ n) ∧ min (1 + 32 * j) (n + 1) ≤ watermark 1 S' := by
  induction j with
  | zero =>
    have hwm := le_watermark 1 S
    exact ⟨rfl, rfl, hs, r, S, hl, rfl, htr, hS, by omega⟩
  | succ j ih =>
    obtain ⟨hs₁, hp₁, hsends, r₁, S₁, hl₁, heid₁, htr₁, hS₁, hwm₁⟩ := ih
    obtain ⟨hs₂, hp₂, hsends₂, r₂, S₂, hl₂, heid₂, htr₂, hS₂, hwm₂⟩ :=
      round_progress sAddr (by rwa [hs₁, hp₁]) (by rw [hs₁]; exact hg) hsends hrel hn hl₁ htr₁ hS₁
        (ticks j)
    exact ⟨hs₂.trans hs₁, hp₂.trans hp₁, hsends₂, r₂, S₂, hl₂, heid₂.trans heid₁, htr₂, hS₂,
      by omega⟩

/-- The history holds 256 samples. For `n ≤ 256` the reader has everything after as many rounds as
there are windows of 32 numbers in `1..n`, whatever it had before. -/
theorem window_recovery {n : ℕ} (hn : n ≤ 256) {cfg : WriterConfig} (hrel : cfg.reliable = true)
    {s p : Participant} (hne : s.guidPrefix ≠ p.guidPrefix) {sAddr pAddr : UDPAddr}
    (hs : Sends s cfg n pAddr) {r : Reader} (hl : Listens p ⟨s.guidPrefix, cfg.eid⟩ r)
    {got : List UInt64} (hgot : ∀ k ∈ got, 1 ≤ k.toNat ∧ k.toNat ≤ n)
    (hrt : RecvTracker.SameWindow (RecvTracker.after (.initExpected 1 :: got.map .record))
      (r.trackerFor ⟨s.guidPrefix, cfg.eid⟩)) (ticks : ℕ → Int32 × Int) {j : ℕ} (hj : n ≤ 32 * j) :
    ∃ r', (Run.states (round ⟨s.guidPrefix, cfg.eid⟩ n sAddr pAddr) (s, p) ticks
        j).2.readers.get? r.eid = some r' ∧
      (r'.trackerFor ⟨s.guidPrefix, cfg.eid⟩).expected.toNat = n + 1 ∧
      ∀ k : UInt64, 1 ≤ k.toNat → k.toNat ≤ n →
        (r'.trackerFor ⟨s.guidPrefix, cfg.eid⟩).Received k := by
  have hn' : n ≤ 8192 := hn.trans (by decide)
  obtain ⟨S, htr, hS⟩ := (tracks_initExpected_new 1).foldl_record hn'
    (fun k hk => absurd hk (Finset.notMem_empty k)) fun k hk => (hgot k hk).2
  obtain ⟨-, -, -, r', S', hl', heid, htr', hS', hwm⟩ :=
    rounds_progress sAddr hne rfl hs hrel hn hl (hrt.tracks htr) hS ticks j
  have hle : watermark 1 S' ≤ n + 1 := watermark_le_succ (Nat.le_add_left 1 n) hS'
  have hexp := htr'.expected
  refine ⟨r', heid ▸ hl'.mem, by omega, fun k _ hk => ⟨htr'.initDone, .inl ?_⟩⟩
  rw [lt_iff_toNat_lt]
  omega

def afterWrite (own : GuidPrefix) (w : Writer) : Writer :=
  ({ w with seq := w.seq + 1 }.keep
    [dataMessage own reliableWriter.eid (u64ToSN (w.seq + 1)) 0 [7]]).announced

theorem window_recovery_two :
    let own : GuidPrefix := FixedBytes.copy 12 [1]
    let l := Link.oneReader own (FixedBytes.copy 12 [2])
    let g : GUID := ⟨own, reliableWriter.eid⟩
    let w := afterWrite own (afterWrite own (Writer.new reliableWriter))
    let r := (matchedReader g).setTracker g (RecvTracker.after [.initExpected 1, .record 2])
    let s := { l.sender with writers := empty.insert w }
    let p := { l.receiver with readers := empty.insert r }
    ∃ r', (states (round g 2 l.senderAddr ⟨[0, 0, 0, 0], 7411⟩) (s, p) (fun _ => (1, 0))
        1).2.readers.get? (entityIdForReader 1) = some r' ∧
      (r'.trackerFor g).expected.toNat = 3 ∧
      ∀ k : UInt64, 1 ≤ k.toNat → k.toNat ≤ 2 → (r'.trackerFor g).Received k := by
  intro own l g w r s p
  have hpub : Published own reliableWriter 2 w :=
    .write (.write .new 0 [7] (by decide)) 0 [7] (by decide)
  have heid : reliableWriter.eid = w.eid := (congrArg WriterConfig.eid hpub.config).symm
  have hs : Sends s reliableWriter 2 ⟨[0, 0, 0, 0], 7411⟩ :=
    ⟨rfl, ⟨w, heid ▸ get?_insert_self _ w, hpub⟩, _, mem_cons_self, rfl⟩
  have hacc : r.acceptsSource p.guidPrefix g = true :=
    Reader.acceptsSource_iff.2 (.inr (Finset.mem_singleton_self g))
  have hgot : ∀ k ∈ [(2 : UInt64)], 1 ≤ k.toNat ∧ k.toNat ≤ 2 := by
    intro k hk
    rw [mem_singleton.1 hk]
    exact ⟨by decide, le_rfl⟩
  have hrt : r.trackerFor g = after [.initExpected 1, .record 2] :=
    Reader.trackerFor_setTracker_self _ g _
  exact window_recovery (r := r) (by decide) rfl (by decide) hs ⟨rfl, rfl, hacc⟩ hgot
    (hrt.symm ▸ .refl _) (fun _ => (1, 0)) (by decide)

end Participant

end GoDDS
