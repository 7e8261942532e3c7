import GoDDS.Rtps.AtMostOnce
import GoDDS.Rtps.Drain

/-!
# Gaps

A writer that is asked for numbers its history has lost answers with a GAP. The receiver drops it.
-/

namespace GoDDS

open ByteCodec Go Security List Registry Option Run UInt64 FixedBytes

/-! ## Trackers that count below 2 ^ 63 -/

variable {an : AckNack} {e : Effect} {g : GUID} {own peer : GuidPrefix} {hb : Heartbeat} {i : Input}
  {is : List Input} {src : Option UDPAddr} {p : Participant} {r : Reader} {rt : RecvTracker}
  {dst : UDPAddr} {lastSN sn : UInt64}

namespace RecvTracker

/-- The tracker has seen numbers below `2 ^ 63` only. -/
structure Counted (rt : RecvTracker) : Prop where
  expected_le : rt.expected.toNat ≤ 2 ^ 63
  ahead_lt : ∀ s ∈ rt.ahead, s.toNat < 2 ^ 63

theorem counted_new : Counted new := by
  refine ⟨by decide, ?_⟩
  intro s hs
  exact absurd hs (Finset.notMem_empty s)

theorem SameWindow.counted {rt' : RecvTracker} (h : SameWindow rt rt') (hc : rt.Counted) :
    rt'.Counted := by
  refine ⟨?_, ?_⟩
  · rw [h.expected]
    exact hc.expected_le
  · rw [h.ahead]
    exact hc.ahead_lt

theorem Counted.maxSN_notMem (h : rt.Counted) : maxSN ∉ rt.ahead := by
  intro hmem
  have hlt := h.ahead_lt maxSN hmem
  exact absurd hlt (by decide)

theorem ne_maxSN_of_lt (h : sn.toNat < 2 ^ 63) : sn ≠ maxSN := by
  intro heq
  rw [heq] at h
  exact absurd h (by decide)

theorem Counted.initExpected (h : rt.Counted) {first : UInt64} (hfirst : first.toNat < 2 ^ 63) :
    (rt.initExpected first).Counted := by
  refine ⟨?_, ?_⟩
  · unfold RecvTracker.initExpected
    split_ifs
    · exact Nat.le_of_lt hfirst
    · exact h.expected_le
  · rw [ahead_initExpected]
    exact h.ahead_lt

theorem toNat_succ_le (h : sn.toNat < 2 ^ 63) : (sn + 1).toNat ≤ 2 ^ 63 := by
  have hadd : (sn + 1).toNat = (sn.toNat + 1) % 2 ^ 64 := by
    rw [UInt64.toNat_add]
    rfl
  omega

theorem advance_counted {fuel : Nat} {e : UInt64} {A : Finset UInt64} (he : e.toNat ≤ 2 ^ 63)
    (hA : ∀ s ∈ A, s.toNat < 2 ^ 63) : (advance fuel e A).1.toNat ≤ 2 ^ 63 := by
  induction fuel generalizing e A with
  | zero => exact he
  | succ fuel ih =>
    rw [advance]
    by_cases hmem : e ∈ A
    · rw [if_pos hmem]
      apply ih
      · exact toNat_succ_le (hA e hmem)
      · intro s hs
        exact hA s (Finset.mem_of_mem_erase hs)
    · rw [if_neg hmem]
      exact he

theorem Counted.record (h : rt.Counted) {seq : UInt64} (hseq : seq.toNat < 2 ^ 63) :
    (rt.record seq).1.Counted := by
  have hinit := h.initExpected hseq
  rcases record_cases rt seq with ⟨hr, -⟩ | ⟨heq, -, he, ha⟩ | ⟨-, -, he, ha⟩
  · rw [hr]
    exact hinit
  · refine ⟨?_, ?_⟩
    · rw [he, ← heq]
      exact advance_counted (toNat_succ_le hseq) hinit.ahead_lt
    · intro s hs
      rw [ha] at hs
      exact hinit.ahead_lt s ((advance_keeps hinit.maxSN_notMem).2.1 hs)
  · refine ⟨?_, ?_⟩
    · rw [he]
      exact hinit.expected_le
    · intro s hs
      rw [ha] at hs
      rcases Finset.mem_insert.1 hs with rfl | hs
      · exact hseq
      · exact hinit.ahead_lt s hs

theorem Counted.missing_ne_none (h : rt.Counted) (lastSN : UInt64) : rt.missing lastSN ≠ none := by
  intro hnone
  obtain ⟨-, he, -⟩ := (missing_eq_none_iff rt lastSN).1 hnone
  have hle := h.expected_le
  omega

theorem missing_watermark (h : rt.Counted) (hinit : rt.initDone) (hle : rt.expected ≤ lastSN) :
    ∃ m, rt.missing lastSN = some m ∧ m.needAck ∧ Requests m.base m.bitmap rt.expected := by
  obtain ⟨m, hm⟩ := ne_none_iff_exists'.1 (h.missing_ne_none lastSN)
  have hno : rt.expected.toNat + 31 < 2 ^ 64 := by
    have := h.expected_le
    omega
  have hnotMem : rt.expected ∉ rt.ahead := fun hmem =>
    UInt64.lt_irrefl _ (rt.ahead_gt _ hmem)
  refine ⟨m, hm, ?_, ?_⟩
  · unfold missing at hm
    rw [if_neg (by simp [hinit]), if_neg (UInt64.not_lt.2 hle)] at hm
    obtain ⟨r, hloop, rfl⟩ := Option.map_eq_some_iff.1 hm
    refine (missingLoop_eq_some hloop).2.2 (.inr ⟨rt.expected, UInt64.le_refl _, ?_, hnotMem⟩)
    exact (le_window_iff hno).2 ⟨hle, by omega⟩
  · exact (requests_missing_iff hm hinit hno _).2 ⟨UInt64.le_refl _, hle, by omega, hnotMem⟩

end RecvTracker

/-! ## What an acknowledgement asks for -/

namespace Reader

theorem IsAckNack.asks (h : r.IsAckNack g rt lastSN (.unicast dst peer (.ackNack an))) :
    g = ⟨peer, an.writerEntityId⟩ ∧ r.eid = an.readerEntityId ∧
      ∃ m, rt.missing lastSN = some m ∧ m.needAck ∧ snToU64 an.base = m.base ∧
        an.bitmap = m.bitmap := by
  obtain ⟨addr, m, count, hm, hneed, heq⟩ := h
  cases heq
  exact ⟨rfl, rfl, m, hm, hneed, snToU64_u64ToSN _, rfl⟩

theorem acknowledge_stuck (h : rt.missing lastSN ≠ none) (r : Reader) (g : GUID)
    (src : Option UDPAddr) : (r.acknowledge g rt lastSN src).stuck = false := by
  obtain ⟨m, hm⟩ := ne_none_iff_exists'.1 h
  unfold acknowledge
  rw [hm]
  cases src with
  | none => rfl
  | some addr =>
    dsimp only
    split_ifs <;> rfl

theorem notify_active (h : e ∈ (r.notify own g sn src).effects) :
    r.reliable ∧ r.acceptsSource own g := by
  unfold notify at h
  by_cases hskip : (!r.reliable || !r.acceptsSource own g) = true
  · rw [if_pos hskip] at h
    cases h
  · simpa using hskip

theorem onHeartbeat_active {now : Int} (h : e ∈ (r.onHeartbeat own g hb src now).effects) :
    r.reliable ∧ r.acceptsSource own g ∧ hb.liveliness = false := by
  unfold onHeartbeat at h
  dsimp only at h
  have hcfg := (r.sameMatch_touchLiveliness g now).cfg
  split_ifs at h with hacc hskip
  · cases h
  · cases h
  · rw [congrArg ReaderConfig.reliable hcfg] at hskip
    simp only [Bool.or_eq_true, Bool.not_eq_true', not_or, Bool.not_eq_true, Bool.not_eq_false]
      at hskip hacc
    exact ⟨hskip.2, hacc, hskip.1⟩

theorem onHeartbeat_of_active (hrel : r.reliable) (hacc : r.acceptsSource own g)
    (hlive : hb.liveliness = false) (src : Option UDPAddr) (now : Int) :
    r.onHeartbeat own g hb src now = (r.touchLiveliness g now).acknowledge g
      ((r.trackerFor g).initExpected (snToU64 hb.firstSN)) (snToU64 hb.lastSN) src := by
  have hrel' : (r.touchLiveliness g now).reliable := by
    rw [congrArg ReaderConfig.reliable (r.sameMatch_touchLiveliness g now).cfg]
    exact hrel
  unfold onHeartbeat
  rw [if_neg (by simp [hacc]), if_neg (by simp [hlive, hrel']), trackerFor_touchLiveliness]

theorem onHeartbeat_tracker (hrel : r.reliable) (hacc : r.acceptsSource own g)
    (hlive : hb.liveliness = false) (src : Option UDPAddr) (now : Int) :
    RecvTracker.SameWindow ((r.trackerFor g).initExpected (snToU64 hb.firstSN))
      ((r.onHeartbeat own g hb src now).reader.trackerFor g) := by
  rw [onHeartbeat_of_active hrel hacc hlive]
  exact acknowledge_tracker _ _ _ _ _

end Reader

def Effect.Asks (eid : EntityId) (g : GUID) (sn : UInt64) : Effect → Prop
  | .unicast _ peer (.ackNack an) =>
    peer = g.guidPrefix ∧ an.readerEntityId = eid ∧ an.writerEntityId = g.entity ∧
      RecvTracker.Requests (snToU64 an.base) an.bitmap sn
  | _ => False

instance (eid : EntityId) (g : GUID) (sn : UInt64) (e : Effect) : Decidable (e.Asks eid g sn) := by
  unfold Effect.Asks
  split <;> infer_instance

theorem Reader.acknowledge_asks_iff (r : Reader) (g : GUID) (rt : RecvTracker) (lastSN : UInt64)
    (addr : UDPAddr) (sn : UInt64) :
    (∃ e ∈ (r.acknowledge g rt lastSN (some addr)).effects, e.Asks r.eid g sn) ↔
      ∃ m, rt.missing lastSN = some m ∧ m.needAck ∧ RecvTracker.Requests m.base m.bitmap sn := by
  unfold acknowledge
  cases rt.missing lastSN with
  | none => simp
  | some m =>
    by_cases hneed : m.needAck
    · simp [hneed, Effect.Asks, snToU64_u64ToSN]
    · simp [hneed]

theorem Reader.onHeartbeat_requests (hrel : r.reliable) (hacc : r.acceptsSource own g)
    (hlive : hb.liveliness = false) (hinit : (r.trackerFor g).initDone)
    (hc : (r.trackerFor g).Counted) (hle : (r.trackerFor g).expected ≤ snToU64 hb.lastSN)
    (addr : UDPAddr) (now : Int) : ∃ e ∈ (r.onHeartbeat own g hb (some addr) now).effects,
      e.Asks r.eid g (r.trackerFor g).expected := by
  rw [onHeartbeat_of_active hrel hacc hlive, RecvTracker.initExpected_of_initDone hinit,
    ← (r.sameMatch_touchLiveliness g now).eid]
  exact (acknowledge_asks_iff _ _ _ _ _ _).2 (RecvTracker.missing_watermark hc hinit hle)

namespace Participant

/-- The ACKNACK `an` asks for what the tracker of writer `g` misses in reader `r'`, which was `r`
before. -/
structure AskedBy (own : GuidPrefix) (g : GUID) (an : AckNack) (r r' : Reader) : Prop where
  reliable : r.reliable = true
  accepts : r.acceptsSource own g = true
  missing : ∃ lastSN m, (r'.trackerFor g).missing lastSN = some m ∧ m.needAck = true ∧
    snToU64 an.base = m.base ∧ an.bitmap = m.bitmap

open Effect

open Reader

theorem askedBy_notify (h : unicast dst peer (.ackNack an) ∈ (r.notify own g sn src).effects) :
    g = ⟨peer, an.writerEntityId⟩ ∧ r.eid = an.readerEntityId ∧
      AskedBy own g an r (r.notify own g sn src).reader := by
  obtain ⟨hrel, hacc⟩ := notify_active h
  obtain ⟨hg, heid, m, hm, hask⟩ := (notify_effects h).asks
  refine ⟨hg, heid, hrel, hacc, sn, m, ?_, hask⟩
  rw [(notify_tracker hrel hacc).missing]
  exact hm

theorem askedBy_onHeartbeat {now : Int}
    (h : unicast dst peer (.ackNack an) ∈ (r.onHeartbeat own g hb src now).effects) :
    g = ⟨peer, an.writerEntityId⟩ ∧ r.eid = an.readerEntityId ∧
      AskedBy own g an r (r.onHeartbeat own g hb src now).reader := by
  obtain ⟨hrel, hacc, hlive⟩ := onHeartbeat_active h
  obtain ⟨hg, heid, m, hm, hask⟩ := (onHeartbeat_effects h).asks
  refine ⟨hg, heid, hrel, hacc, snToU64 hb.lastSN, m, ?_, hask⟩
  rw [(onHeartbeat_tracker hrel hacc hlive src now).missing]
  exact hm

theorem AskedBy.of_trackerFor {r' r'' : Reader} (h : AskedBy own g an r r')
    (heq : r''.trackerFor g = r'.trackerFor g) : AskedBy own g an r r'' := by
  refine ⟨h.reliable, h.accepts, ?_⟩
  rw [heq]
  exact h.missing

theorem act_asks (h : unicast dst peer (.ackNack an) ∈ (p.act i).2) :
    ∃ r r', p.readers.get? an.readerEntityId = some r ∧
      (p.act i).1.readers.get? an.readerEntityId = some r' ∧
      AskedBy p.guidPrefix ⟨peer, an.writerEntityId⟩ an r r' := by
  have hread : ∀ r ∈ p.readers.items, p.readers.get? r.eid = some r := fun r hr =>
    get?_eq_some.2 ⟨hr, rfl⟩
  cases hstuck : p.stuck with
  | true =>
    rw [act_of_stuck hstuck] at h
    cases h
  | false =>
    obtain ⟨a, src, now⟩ := i
    cases a with
    | data g sn payload ts =>
      rw [act_data hstuck] at h ⊢
      have hchk : unicast dst peer (.ackNack an) ∉ (p.checkReplay g sn ts).2.1 := by
        unfold checkReplay
        split
        · exact not_mem_nil
        · simp
      have htold : unicast dst peer (.ackNack an) ∈
            ((p.checkReplay g sn ts).1.notifyReliableReaders g sn src).2 →
          ∃ r, p.readers.get? an.readerEntityId = some r ∧
            ((p.checkReplay g sn ts).1.notifyReliableReaders g sn src).1.readers.get?
              an.readerEntityId = some (r.notify p.guidPrefix g sn src).reader ∧
            AskedBy p.guidPrefix ⟨peer, an.writerEntityId⟩ an r
              (r.notify p.guidPrefix g sn src).reader := by
        intro he
        obtain ⟨r, hr, he⟩ := mem_flatMap.1 he
        rw [checkReplay_readers] at hr
        rw [checkReplay_config] at he
        obtain ⟨rfl, heid, hasked⟩ := askedBy_notify he
        have hget := heid ▸ hread r hr
        refine ⟨r, hget, ?_, hasked⟩
        rw [get?_notifyReliableReaders, checkReplay_readers, checkReplay_config, hget]
        rfl
      rcases handleOpened_cases p g sn payload src ts now with ⟨-, heq⟩ | ⟨-, -, heq⟩ | ⟨-, -, heq⟩
      · rw [heq] at h
        exact absurd h hchk
      · rw [heq] at h ⊢
        obtain ⟨r, hr, hr', hasked⟩ := htold ((mem_append.1 h).resolve_left hchk)
        exact ⟨r, _, hr, hr', hasked⟩
      · rw [heq] at h ⊢
        rcases mem_append.1 ((mem_append.1 h).resolve_left hchk) with h | h
        · obtain ⟨r, hr, hr', hasked⟩ := htold h
          refine ⟨r, _, hr, by rw [get?_dispatchToReaders, hr']; rfl, ?_⟩
          exact hasked.of_trackerFor (trackerFor_offer _ _ _ _)
        · obtain ⟨r, -, ⟨queued, hdisp⟩, -⟩ := dispatchToReaders_effects h
          cases hdisp
    | heartbeat g hb =>
      rw [act_heartbeat hstuck] at h ⊢
      obtain ⟨r, hr, he⟩ := mem_flatMap.1 h
      obtain ⟨rfl, heid, hasked⟩ := askedBy_onHeartbeat he
      have hget := heid ▸ hread r hr
      refine ⟨r, _, hget, ?_, hasked⟩
      rw [handleHeartbeat, get?_react, hget]
      rfl
    | ackNack g an' =>
      rw [act_ackNack hstuck] at h
      obtain ⟨w, dst', peer', -, ⟨sn, msg, -, heq⟩ | ⟨gap, -, heq⟩⟩ := handleAckNack_effects h
      all_goals cases heq

/-! ## Runs -/

def Action.Counted : Action → Prop
  | .data _ sn _ _ => sn.toNat < 2 ^ 63
  | .heartbeat _ hb => (snToU64 hb.firstSN).toNat < 2 ^ 63 ∧ (snToU64 hb.lastSN).toNat < 2 ^ 63
  | .ackNack _ _ => True

instance (a : Action) : Decidable a.Counted := by
  unfold Action.Counted
  split <;> infer_instance

/-- The handlers are not stuck, and all trackers have seen numbers below `2 ^ 63` only. -/
structure Counted (p : Participant) : Prop where
  running : p.stuck = false
  trackers : ∀ eid r, p.readers.get? eid = some r → ∀ g, (r.trackerFor g).Counted

theorem counted_windowMove {a : Action} (ha : a.Counted) (hr : (r.trackerFor g).Counted)
    (h : WindowMove own r a g rt) : rt.Counted := by
  cases h with
  | same h => exact h.counted hr
  | contact hb heq h =>
    subst heq
    exact h.counted (hr.initExpected ha.1)
  | record sn payload ts heq _ h =>
    subst heq
    exact h.counted (hr.record ha)

theorem stuck_react (hp : p.stuck = false) {f : Reader → Reaction}
    (hf : ∀ r, Reader.SameSources r (f r).reader) (h : ∀ r ∈ p.readers.items, (f r).stuck = false) :
    (p.react f hf).1.stuck = false := by
  show (p.stuck || p.readers.items.any fun r => (f r).stuck) = false
  rw [hp, Bool.false_or, List.any_eq_false]
  intro r hr
  rw [h r hr]
  exact Bool.false_ne_true

theorem stuck_act (hp : p.Counted) (hi : i.action.Counted) : (p.act i).1.stuck = false := by
  have hread : ∀ r ∈ p.readers.items, ∀ g, (r.trackerFor g).Counted := fun r hr =>
    hp.trackers r.eid r (get?_eq_some.2 ⟨hr, rfl⟩)
  obtain ⟨a, src, now⟩ := i
  cases a with
  | data g sn payload ts =>
    have htold : ((p.checkReplay g sn ts).1.notifyReliableReaders g sn src).1.stuck = false := by
      apply stuck_react
      · unfold checkReplay
        split <;> exact hp.running
      · intro r hr
        rw [checkReplay_readers] at hr
        unfold notify
        split_ifs
        · rfl
        · exact acknowledge_stuck (((hread r hr g).record hi).missing_ne_none sn) _ _ _
    rw [act_data hp.running]
    rcases handleOpened_cases p g sn payload src ts now with ⟨-, heq⟩ | ⟨-, -, heq⟩ | ⟨-, -, heq⟩
    · rw [heq]
      unfold checkReplay
      split <;> exact hp.running
    all_goals
      rw [heq]
      exact htold
  | heartbeat g hb =>
    rw [act_heartbeat hp.running]
    apply stuck_react hp.running
    intro r hr
    unfold onHeartbeat
    dsimp only
    split_ifs
    · rfl
    · rfl
    · apply acknowledge_stuck
      rw [trackerFor_touchLiveliness]
      exact ((hread r hr g).initExpected hi.1).missing_ne_none _
  | ackNack g an =>
    rw [act_ackNack hp.running]
    unfold handleAckNack
    split
    · exact hp.running
    · split_ifs <;> exact hp.running

theorem counted_act (hp : p.Counted) (hi : i.action.Counted) : (p.act i).1.Counted := by
  refine ⟨stuck_act hp hi, ?_⟩
  intro eid r' hr' g
  cases hr : p.readers.get? eid with
  | none =>
    rw [act_reader_none i hr] at hr'
    cases hr'
  | some r =>
    obtain ⟨r'', hr'', -, hmove⟩ := act_reader i hr
    obtain rfl := some.inj (hr'.symm.trans hr'')
    exact counted_windowMove hi (hp.trackers eid r hr g) (hmove g)

/-- Reader `eid` listens to writer `g`, and its watermark for the writer is at least `b`. -/
def Past (eid : EntityId) (g : GUID) (b : UInt64) (p : Participant) : Prop :=
  ∃ r, p.readers.get? eid = some r ∧ r.reliable = true ∧ r.acceptsSource p.guidPrefix g = true ∧
    (r.trackerFor g).initDone = true ∧ b ≤ (r.trackerFor g).expected

theorem expected_le_windowMove {a : Action} (ha : a.Counted) (hc : (r.trackerFor g).Counted)
    (hinit : (r.trackerFor g).initDone) (h : WindowMove own r a g rt) :
    rt.initDone ∧ (r.trackerFor g).expected ≤ rt.expected := by
  cases h with
  | same h => exact ⟨h.initDone.trans hinit, by rw [h.expected]; exact UInt64.le_refl _⟩
  | contact hb _ h =>
    rw [RecvTracker.initExpected_of_initDone hinit] at h
    exact ⟨h.initDone.trans hinit, by rw [h.expected]; exact UInt64.le_refl _⟩
  | record sn payload ts heq _ h =>
    subst heq
    refine ⟨?_, ?_⟩
    · rw [h.initDone]
      exact RecvTracker.initDone_record _ _
    · rw [h.expected]
      exact RecvTracker.expected_le_record hinit hc.maxSN_notMem (RecvTracker.ne_maxSN_of_lt ha)

theorem past_act {eid : EntityId} {b : UInt64} (hp : p.Counted) (hi : i.action.Counted)
    (h : Past eid g b p) : Past eid g b (p.act i).1 := by
  obtain ⟨r, hr, hrel, hacc, hinit, hle⟩ := h
  obtain ⟨r', hr', hsame, hmove⟩ := act_reader i hr
  obtain ⟨hinit', hle'⟩ := expected_le_windowMove hi (hp.trackers eid r hr g) hinit (hmove g)
  refine ⟨r', hr', hsame.reliable.trans hrel, ?_, hinit', UInt64.le_trans hle hle'⟩
  rw [config_act, hsame.acceptsSource]
  exact hacc

theorem past_of_asks (hp : p.Counted) (hi : i.action.Counted)
    (h : unicast dst peer (.ackNack an) ∈ (p.act i).2) :
    Past an.readerEntityId ⟨peer, an.writerEntityId⟩ (snToU64 an.base) (p.act i).1 ∧
      ∀ sn, RecvTracker.Requests (snToU64 an.base) an.bitmap sn →
        ∀ b, Past an.readerEntityId ⟨peer, an.writerEntityId⟩ b p → b ≤ sn := by
  obtain ⟨r, r', hr, hr', hasked⟩ := act_asks h
  obtain ⟨lastSN, m, hm, hneed, hbase, hbits⟩ := hasked.missing
  obtain ⟨hinit', hmbase, -⟩ := RecvTracker.le_of_missing_needAck hm hneed
  obtain ⟨r'', hr'', hsame, -⟩ := act_reader i hr
  obtain rfl := Option.some.inj (hr'.symm.trans hr'')
  have hc' := (counted_act hp hi).trackers _ r' hr' ⟨peer, an.writerEntityId⟩
  refine ⟨⟨r', hr', hsame.reliable.trans hasked.reliable, ?_, hinit', ?_⟩, ?_⟩
  · rw [config_act, hsame.acceptsSource]
    exact hasked.accepts
  · rw [hbase, hmbase]
    exact UInt64.le_refl _
  · intro sn hsn b hb
    obtain ⟨r₂, hr₂, -, -, -, hle⟩ := past_act hp hi hb
    obtain rfl := some.inj (hr'.symm.trans hr₂)
    have hno : (r'.trackerFor ⟨peer, an.writerEntityId⟩).expected.toNat + 31 < 2 ^ 64 := by
      have := hc'.expected_le
      omega
    rw [hbase, hbits] at hsn
    exact UInt64.le_trans hle ((RecvTracker.requests_missing_iff hm hinit' hno sn).1 hsn).1

def AllCounted (is : List Input) : Prop := ∀ i ∈ is, i.action.Counted
  deriving Decidable

theorem past_run (hp : p.Counted) (his : AllCounted is) : (run act p is).1.Counted ∧
      ∀ dst peer an, unicast dst peer (.ackNack an) ∈ (run act p is).2 →
        Past an.readerEntityId ⟨peer, an.writerEntityId⟩ (snToU64 an.base) (run act p is).1 := by
  refine run_induction (J := fun q _ effs => q.Counted ∧
      ∀ dst peer an, unicast dst peer (.ackNack an) ∈ effs →
        Past an.readerEntityId ⟨peer, an.writerEntityId⟩ (snToU64 an.base) q)
    ?_ ⟨hp, ?_⟩ (along_of_mem his [] p)
  · intro q i _ effs hi ⟨hq, hpast⟩
    refine ⟨counted_act hq hi, ?_⟩
    intro dst peer an hmem
    rcases mem_append.1 hmem with hmem | hmem
    · exact past_act hq hi (hpast dst peer an hmem)
    · exact (past_of_asks hq hi hmem).1
  · intro dst peer an hmem
    cases hmem

theorem not_asks_run {eid : EntityId} {b : UInt64} (hp : p.Counted) (hpast : Past eid g b p)
    (his : AllCounted is) (he : e ∈ (run act p is).2) (hasks : e.Asks eid g sn) : b ≤ sn := by
  refine outputs_of_along (I := fun q => q.Counted ∧ Past eid g b q)
    (P := fun e => e.Asks eid g sn → b ≤ sn) ?_ ?_ ⟨hp, hpast⟩ (along_of_mem his [] p) e he hasks
  · rintro _ q i ⟨hq, hpastq⟩ hi
    exact ⟨counted_act hq hi, past_act hq hi hpastq⟩
  · rintro _ q i ⟨hq, hpastq⟩ hi e he hasks
    -- only ACKNACKs ask for anything
    unfold Effect.Asks at hasks
    split at hasks
    · obtain ⟨rfl, rfl, hentity, hreq⟩ := hasks
      refine (past_of_asks hq hi he).2 sn hreq b ?_
      rw [hentity]
      exact hpastq
    · exact hasks.elim

/-! ## Gaps -/

/-- **What a gap announces**: the numbers from the base of the ACKNACK on, up to one below the first
that the history has. -/
theorem evictedGap_eq_some {w : Writer} {gap : Gap} (h : evictedGap w an = some gap) :
    ∃ first last, w.history.firstLast = some (first, last) ∧
      snToU64 gap.gapStart = snToU64 an.base ∧ snToU64 gap.gapEnd < first := by
  unfold evictedGap at h
  cases hfl : w.history.firstLast with
  | none =>
    rw [hfl] at h
    cases h
  | some fl =>
    obtain ⟨first, last⟩ := fl
    rw [hfl] at h
    dsimp only at h
    by_cases hlt : snToU64 an.base < first
    · rw [if_pos hlt] at h
      obtain rfl := some.inj h
      refine ⟨first, last, rfl, snToU64_u64ToSN _, ?_⟩
      rw [snToU64_u64ToSN]
      have hpred : first - 1 < first := by
        have hone : (1 : UInt64) ≤ first := by
          rw [le_iff_toNat_le]
          rw [lt_iff_toNat_lt] at hlt
          exact Nat.succ_le_of_lt (Nat.lt_of_le_of_lt (Nat.zero_le _) hlt)
        rw [lt_iff_toNat_lt, UInt64.toNat_sub_of_le _ _ hone]
        rw [le_iff_toNat_le] at hone
        change 1 ≤ first.toNat at hone
        show first.toNat - 1 < first.toNat
        omega
      split_ifs with hwide
      · exact UInt64.lt_trans hwide hpred
      · exact hpred
    · rw [if_neg hlt] at h
      cases h

structure Unheard (p : Participant) : Prop where
  running : p.stuck = false
  trackers : ∀ r ∈ p.readers.items, r.trackers = Table.empty

theorem Unheard.counted (h : p.Unheard) : p.Counted := by
  refine ⟨h.running, ?_⟩
  intro eid r hr g
  unfold trackerFor
  rw [h.trackers r (get?_eq_some.1 hr).1]
  exact RecvTracker.counted_new

theorem guid_eq {e : EntityId} (h : e = g.entity) : (⟨g.guidPrefix, e⟩ : GUID) = g := by
  rw [h]

theorem handleDataPacket_gap {sender : GuidPrefix} (h : sender ≠ p.guidPrefix) (gap : Gap)
    (src : Option UDPAddr) (now : Int) :
    p.handleDataPacket ⟨(Outgoing.gap gap).bytes sender, src, now⟩ = (p, []) := by
  rw [handleDataPacket_eq_run, inputsOf_gap h]
  rfl

theorem asks_after_gap {q : Participant} {w : Writer} {gap : Gap} (hq : q.Counted)
    (hremote : g.guidPrefix ≠ q.guidPrefix) (hw : w.eid = g.entity)
    (hgap : evictedGap w an = some gap) (hlast : w.history.highest.toNat < 2 ^ 63)
    (hpast : Past an.readerEntityId g (snToU64 an.base) q)
    (hr : q.readers.get? an.readerEntityId = some r)
    (hle : (r.trackerFor g).expected ≤ snToU64 gap.gapEnd) (addr : UDPAddr) (now : Int) :
    ∃ pkt, AllCounted (inputsOf q.config pkt) ∧
      ∃ e ∈ (q.handleDataPacket pkt).2, ∃ sn, snToU64 gap.gapStart ≤ sn ∧
        sn ≤ snToU64 gap.gapEnd ∧ e.Asks an.readerEntityId g sn := by
  obtain ⟨first, last, hfl, hstart, hend⟩ := evictedGap_eq_some hgap
  have hwindow : first = w.history.lowest ∧ last = w.history.highest := by
    unfold SendHistory.firstLast at hfl
    split_ifs at hfl
    obtain ⟨rfl, rfl⟩ := Prod.mk.inj (some.inj hfl)
    exact ⟨rfl, rfl⟩
  have hfirst : first ≤ last := by
    rw [hwindow.1, hwindow.2]
    exact w.history.lowest_le
  obtain ⟨r₂, hr₂, hrel, hacc, hinit, hbase⟩ := hpast
  obtain rfl := some.inj (hr.symm.trans hr₂)
  -- the writer's next heartbeat
  let hb : Heartbeat :=
    { readerEntityId := entityIdUnknown, writerEntityId := w.eid, firstSN := u64ToSN first,
      lastSN := u64ToSN last, count := w.history.hbCount + 1, liveliness := false }
  have hinputs := inputsOf_heartbeat hremote hb (some addr) now
  rw [guid_eq hw] at hinputs
  refine ⟨⟨(Outgoing.heartbeat hb).bytes g.guidPrefix, some addr, now⟩, ?_, ?_⟩
  · rw [hinputs]
    intro i hi
    obtain rfl := mem_singleton.1 hi
    rw [← hwindow.2] at hlast
    have hle' := le_iff_toNat_le.1 hfirst
    show (snToU64 (u64ToSN first)).toNat < 2 ^ 63 ∧ (snToU64 (u64ToSN last)).toNat < 2 ^ 63
    rw [snToU64_u64ToSN, snToU64_u64ToSN]
    exact ⟨Nat.lt_of_le_of_lt hle' hlast, hlast⟩
  · have hannounced : (r.trackerFor g).expected ≤ snToU64 hb.lastSN := by
      show _ ≤ snToU64 (u64ToSN last)
      rw [snToU64_u64ToSN]
      exact UInt64.le_trans hle (UInt64.le_trans (UInt64.le_of_lt hend) hfirst)
    obtain ⟨e, he, hasks⟩ := Reader.onHeartbeat_requests hrel hacc rfl hinit
      (hq.trackers _ r hr g) hannounced addr now
    obtain ⟨hmem, heid⟩ := get?_eq_some.1 hr
    refine ⟨e, ?_, (r.trackerFor g).expected, ?_, hle, ?_⟩
    · rw [handleDataPacket_eq_run, hinputs, run_singleton, act_heartbeat hq.running]
      exact mem_flatMap.2 ⟨r, hmem, he⟩
    · rw [hstart]
      exact hbase
    · rw [← heid]
      exact hasks

/-- A reader that has asked a writer for numbers and is told by a GAP that `[s, e]` is gone never
asks for one of them again exactly if its watermark was past `e` before the GAP came. -/
theorem gap_ends_requests_iff {p s : Participant} {heard : List Packet} {an : AckNack} {gap : Gap}
    {g : GUID} {r : Reader} {dst dst' : UDPAddr} {peer : GuidPrefix} {src : Option UDPAddr}
    (hp : p.Unheard) (hheard : AllCounted (heard.flatMap (inputsOf p.config)))
    (hsent : Effect.unicast dst g.guidPrefix (.ackNack an) ∈ (p.receive heard).2)
    (hentity : an.writerEntityId = g.entity) (hs : s.guidPrefix = g.guidPrefix)
    (hremote : g.guidPrefix ≠ p.guidPrefix)
    (hgap : Effect.unicast dst' peer (.gap gap) ∈ (s.handleAckNack an src).2)
    (hlast : ∀ w, s.writers.get? g.entity = some w → w.history.highest.toNat < 2 ^ 63)
    (hr : (p.receive heard).1.readers.get? an.readerEntityId = some r) (src' : Option UDPAddr)
    (now : Int) :
    (∀ later : List Packet, AllCounted (later.flatMap (inputsOf p.config)) →
      ∀ e ∈ (((p.receive heard).1.handleDataPacket
          ⟨(Outgoing.gap gap).bytes s.guidPrefix, src', now⟩).1.receive later).2,
      ∀ sn, snToU64 gap.gapStart ≤ sn → sn ≤ snToU64 gap.gapEnd → ¬ e.Asks an.readerEntityId g sn) ↔
      snToU64 gap.gapEnd < (r.trackerFor g).expected := by
  have hcfg : (p.receive heard).1.config = p.config := by
    rw [receive_eq_run, config_run_act]
  have hremote' : g.guidPrefix ≠ (p.receive heard).1.guidPrefix := by
    rw [hcfg]
    exact hremote
  have hrun := past_run hp.counted hheard
  rw [← receive_eq_run] at hrun
  obtain ⟨hq, hpast⟩ := hrun
  have hpast := hpast dst g.guidPrefix an hsent
  rw [guid_eq hentity] at hpast
  rw [hs, handleDataPacket_gap hremote']
  constructor
  · intro hnever
    by_contra hnot
    obtain ⟨w, dst₂, peer₂, hw, ⟨sn, msg, -, heq⟩ | ⟨gap₂, hgap₂, heq⟩⟩ :=
      handleAckNack_effects hgap
    · cases heq
    · cases heq
      rw [hentity] at hw
      obtain ⟨pkt, hcount, e, he, sn, hlo, hhi, hasks⟩ := asks_after_gap hq hremote'
        (get?_eq_some.1 hw).2 hgap₂ (hlast w hw) hpast hr (UInt64.not_lt.1 hnot) dst now
      rw [hcfg] at hcount
      refine hnever [pkt] ?_ e ?_ sn hlo hhi hasks
      · rw [flatMap_singleton]
        exact hcount
      · rw [receive, run_singleton]
        exact he
  · intro hlt later hlater e he sn _ hhi hasks
    obtain ⟨r₂, hr₂, hrel, hacc, hinit, -⟩ := hpast
    obtain rfl := some.inj (hr.symm.trans hr₂)
    rw [receive_eq_run, hcfg] at he
    have hle : (r.trackerFor g).expected ≤ sn :=
      not_asks_run hq ⟨r, hr, hrel, hacc, hinit, UInt64.le_refl _⟩ hlater he hasks
    exact UInt64.lt_irrefl _ (UInt64.lt_of_lt_of_le hlt (UInt64.le_trans hle hhi))

def overfull (own : GuidPrefix) (q : GUID) : Participant :=
  (Run.run handle (publishingTo own q q)
    (List.replicate 257 (.write reliableWriter.eid [7] [] 0))).1

def announcePacket (own : GuidPrefix) (addr : UDPAddr) (first last : UInt64) : Packet :=
  ⟨(Outgoing.heartbeat ⟨entityIdUnknown, reliableWriter.eid, u64ToSN first, u64ToSN last, 1,
    false⟩).bytes own, some addr, 0⟩

theorem gap_ends_requests_late :
    let own : GuidPrefix := copy 12 [1]
    let g : GUID := ⟨own, reliableWriter.eid⟩
    let q : GUID := ⟨copy 12 [2], entityIdForReader 1⟩
    let addr : UDPAddr := ⟨[127, 0, 0, 1], 7411⟩
    let gap : Gap := ⟨q.entity, g.entity, u64ToSN 1, u64ToSN 1⟩
    let p := subscribedTo q.guidPrefix g
    let asked := p.receive [announcePacket own addr 1 1,
      ⟨dataMessage own g.entity (u64ToSN 1) 0 [7], some addr, 0⟩]
    let told := asked.1.handleDataPacket ⟨(Outgoing.gap gap).bytes own, some addr, 0⟩
    ((asked.1.readers.get? q.entity).any
        fun r => snToU64 gap.gapEnd < (r.trackerFor g).expected) = true ∧
      ∀ later : List Packet, AllCounted (later.flatMap (inputsOf p.config)) →
        ∀ e ∈ (told.1.receive later).2, ∀ sn, snToU64 gap.gapStart ≤ sn →
          sn ≤ snToU64 gap.gapEnd → ¬ e.Asks q.entity g sn := by
  intro own g q addr gap p asked told
  have hsome : (asked.1.readers.get? q.entity).isSome = true := by decide +kernel
  have hpast : snToU64 gap.gapEnd < (((asked.1.readers.get? q.entity).get hsome).trackerFor
      g).expected := by
    decide +kernel +revert
  have hp : p.Unheard := by
    refine ⟨rfl, ?_⟩
    intro r hr
    rw [mem_singleton.1 hr]
    rfl
  have hsent : unicast addr g.guidPrefix
      (.ackNack ⟨q.entity, g.entity, u64ToSN 1, 1, 1⟩) ∈ asked.2 := by decide +kernel
  have hgap : unicast addr zeroPrefix (.gap gap) ∈ ((overfull own q).handleAckNack
      ⟨q.entity, g.entity, u64ToSN 1, 1, 1⟩ (some addr)).2 := by decide +kernel
  have hlast : ∀ w ∈ (overfull own q).writers.get? g.entity,
      w.history.highest.toNat < 2 ^ 63 := by decide +kernel
  have hs : (overfull own q).guidPrefix = g.guidPrefix := by decide +kernel
  refine ⟨by decide +kernel, ?_⟩
  have h := (gap_ends_requests_iff hp (by decide +kernel) hsent rfl hs (by decide +kernel) hgap
    hlast (some_get hsome).symm (some addr) 0).2 hpast
  rw [hs] at h
  exact h

/-- A reader that has nothing asks for 1, is told of the gap [1, 1], and at the next heartbeat asks
for 1 again. -/
theorem gap_asked_again :
    let own : GuidPrefix := copy 12 [1]
    let g : GUID := ⟨own, reliableWriter.eid⟩
    let q : GUID := ⟨copy 12 [2], entityIdForReader 1⟩
    let addr : UDPAddr := ⟨[127, 0, 0, 1], 7411⟩
    let an : AckNack := ⟨q.entity, g.entity, u64ToSN 1, 0xFFFFFFFF, 1⟩
    let gap : Gap := ⟨q.entity, g.entity, u64ToSN 1, u64ToSN 1⟩
    let asked := (subscribedTo q.guidPrefix g).receive [announcePacket own addr 1 257]
    let told := asked.1.handleDataPacket ⟨(Outgoing.gap gap).bytes own, some addr, 0⟩
    unicast addr own (.ackNack an) ∈ asked.2 ∧
      unicast addr zeroPrefix (.gap gap) ∈ ((overfull own q).handleAckNack an (some addr)).2 ∧
      ∃ e ∈ (told.1.receive [announcePacket own addr 2 257]).2, e.Asks q.entity g 1 := by
  decide +kernel

end Participant

end GoDDS
