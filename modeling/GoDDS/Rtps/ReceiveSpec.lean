import GoDDS.Rtps.Receive

/-!
# What an action does
-/

namespace GoDDS

open ByteCodec Go Security List

variable {e : Effect} {g : GUID} {own : GuidPrefix} {now : Int} {src : Option UDPAddr}
  {p : Participant} {r : Reader} {rt : RecvTracker} {sn : UInt64}

namespace RecvTracker

structure SameWindow (rt rt' : RecvTracker) : Prop where
  expected : rt'.expected = rt.expected
  ahead : rt'.ahead = rt.ahead
  initDone : rt'.initDone = rt.initDone

theorem SameWindow.refl (rt : RecvTracker) : SameWindow rt rt := ⟨rfl, rfl, rfl⟩

theorem SameWindow.missing {rt' : RecvTracker} (h : SameWindow rt rt') (lastSN : UInt64) :
    rt'.missing lastSN = rt.missing lastSN := by
  unfold RecvTracker.missing
  rw [h.expected, h.ahead, h.initDone]

theorem SameWindow.received {rt' : RecvTracker} (h : SameWindow rt rt') (sn : UInt64) :
    rt'.Received sn ↔ rt.Received sn := by
  unfold Received
  rw [h.expected, h.ahead, h.initDone]

theorem sameWindow_nextAckCount (rt : RecvTracker) : SameWindow rt rt.nextAckCount.1 :=
  ⟨rfl, rfl, rfl⟩

end RecvTracker

/-! ## Reactions of one reader -/

namespace Reader

theorem trackerFor_setTracker_self (r : Reader) (g : GUID) (rt : RecvTracker) :
    (r.setTracker g rt).trackerFor g = rt := by
  simp [trackerFor, setTracker]

theorem trackerFor_setTracker_ne {g' : GUID} (h : g' ≠ g) :
    (r.setTracker g rt).trackerFor g' = r.trackerFor g' := by
  simp [trackerFor, setTracker, Table.set_ne _ _ h]

/-- An acknowledgement `r` sends to `g` when its tracker is `rt` and `lastSN` has been announced. -/
def IsAckNack (r : Reader) (g : GUID) (rt : RecvTracker) (lastSN : UInt64) (e : Effect) : Prop :=
  ∃ addr m count, rt.missing lastSN = some m ∧ m.needAck = true ∧
    e = .unicast addr g.guidPrefix (.ackNack
      { readerEntityId := r.eid
        writerEntityId := g.entity
        base := u64ToSN m.base
        bitmap := m.bitmap
        count := count })

theorem acknowledge_effects {lastSN : UInt64} (h : e ∈ (r.acknowledge g rt lastSN src).effects) :
    r.IsAckNack g rt lastSN e := by
  unfold acknowledge at h
  cases hm : rt.missing lastSN with
  | none => simp [hm] at h
  | some m =>
    cases src with
    | none => simp [hm] at h
    | some addr =>
      by_cases hneed : m.needAck
      · simp only [hm, hneed, Bool.not_true, Bool.false_eq_true, if_false, mem_singleton] at h
        exact ⟨addr, m, _, hm, hneed, h⟩
      · simp [hm, hneed] at h

theorem acknowledge_tracker (r : Reader) (g : GUID) (rt : RecvTracker) (lastSN : UInt64)
    (src : Option UDPAddr) :
    RecvTracker.SameWindow rt ((r.acknowledge g rt lastSN src).reader.trackerFor g) := by
  unfold acknowledge
  split
  · rw [trackerFor_setTracker_self]
    exact .refl rt
  · split
    · rw [trackerFor_setTracker_self]
      exact .refl rt
    · split_ifs
      · rw [trackerFor_setTracker_self]
        exact .refl rt
      · rw [trackerFor_setTracker_self]
        exact rt.sameWindow_nextAckCount

theorem acknowledge_tracker_ne {g' : GUID} (rt : RecvTracker) (lastSN : UInt64)
    (src : Option UDPAddr) (h : g' ≠ g) :
    (r.acknowledge g rt lastSN src).reader.trackerFor g' = r.trackerFor g' := by
  unfold acknowledge
  split
  · exact trackerFor_setTracker_ne h
  · split
    · exact trackerFor_setTracker_ne h
    · split_ifs <;> exact trackerFor_setTracker_ne h

theorem trackerFor_touchLiveliness (r : Reader) (g g' : GUID) (now : Int) :
    (r.touchLiveliness g now).trackerFor g' = r.trackerFor g' := by
  unfold trackerFor
  rw [(sameMatch_touchLiveliness r g now).trackers]

end Reader

namespace Effect

def isDispatchTo (eid : EntityId) : Effect → Bool
  | .dispatch reader _ _ _ _ => reader = eid
  | _ => false

def isUnicast : Effect → Bool
  | .unicast _ _ _ => true
  | _ => false

theorem filter_isDispatchTo_of_unicast {effs : List Effect} (h : ∀ e ∈ effs, e.isUnicast = true)
    (eid : EntityId) : effs.filter (isDispatchTo eid) = [] := by
  refine filter_eq_nil_iff.2 fun e he => ?_
  have hu := h e he
  cases e with
  | unicast dst peer out => simp [isDispatchTo]
  | _ => simp [isUnicast] at hu

end Effect

theorem Reader.IsAckNack.isUnicast {lastSN : UInt64} (h : r.IsAckNack g rt lastSN e) :
    e.isUnicast := by
  obtain ⟨addr, m, count, -, -, rfl⟩ := h
  rfl

/-! ## Handlers -/

namespace Participant

variable (p)

theorem get?_react (f : Reader → Reaction)
    (hf : ∀ r, Reader.SameSources r (f r).reader) (eid : EntityId) :
    (p.react f hf).1.readers.get? eid = (p.readers.get? eid).map fun r => (f r).reader :=
  Registry.get?_map _ _ (fun r => (hf r).eid) _

theorem get?_notifyReliableReaders (g : GUID) (sn : UInt64)
    (src : Option UDPAddr) (eid : EntityId) :
    (p.notifyReliableReaders g sn src).1.readers.get? eid =
      (p.readers.get? eid).map fun r => (r.notify p.guidPrefix g sn src).reader :=
  get?_react _ _ _ _

@[simp] theorem checkReplay_readers (g : GUID) (sn : UInt64) (ts : Int) :
    (p.checkReplay g sn ts).1.readers = p.readers := by
  unfold checkReplay
  split <;> rfl

@[simp] theorem checkReplay_config (g : GUID) (sn : UInt64)
    (ts : Int) : (p.checkReplay g sn ts).1.config = p.config := by
  unfold checkReplay
  split <;> rfl

variable {p}

open Effect

theorem checkReplay_dispatches (p : Participant) (g : GUID) (sn : UInt64) (ts : Int)
    (eid : EntityId) : (p.checkReplay g sn ts).2.1.filter (isDispatchTo eid) = [] := by
  unfold checkReplay
  split <;> rfl

theorem handleOpened_cases (p : Participant) (g : GUID) (sn : UInt64) (payload : Bytes)
    (src : Option UDPAddr) (ts now : Int) :
    let chk := p.checkReplay g sn ts
    let told := chk.1.notifyReliableReaders g sn src
    let sent := told.1.dispatchToReaders (remoteDispatch g sn payload ts now)
    (chk.2.2 = false ∧ p.handleOpened g sn payload src ts now = (chk.1, chk.2.1)) ∨
      (chk.2.2 ∧ told.1.stuck ∧
        p.handleOpened g sn payload src ts now = (told.1, chk.2.1 ++ told.2)) ∨
      (chk.2.2 ∧ told.1.stuck = false ∧
        p.handleOpened g sn payload src ts now = (sent.1, chk.2.1 ++ (told.2 ++ sent.2))) := by
  intro chk told sent
  unfold handleOpened
  cases hpass : chk.2.2 with
  | false => exact .inl ⟨rfl, by simp only [chk] at hpass; simp [hpass, chk]⟩
  | true =>
    cases hstuck : told.1.stuck with
    | true =>
      refine .inr (.inl ⟨rfl, rfl, ?_⟩)
      simp [deliverOpened, hpass, hstuck, chk, told]
    | false =>
      refine .inr (.inr ⟨rfl, rfl, ?_⟩)
      simp only [chk, told] at hpass hstuck
      simp [deliverOpened, hpass, hstuck, chk, told, sent]

inductive WindowMove (own : GuidPrefix) (r : Reader) (a : Action) (g : GUID) (rt : RecvTracker) :
    Prop
  | same (h : RecvTracker.SameWindow (r.trackerFor g) rt)
  | contact (hb : Heartbeat) (ha : a = .heartbeat g hb)
      (h : RecvTracker.SameWindow ((r.trackerFor g).initExpected (snToU64 hb.firstSN)) rt)
  | record (sn : UInt64) (payload : Bytes) (ts : Int) (ha : a = .data g sn payload ts)
      (hacc : r.acceptsSource own g = true)
      (h : RecvTracker.SameWindow ((r.trackerFor g).record sn).1 rt)

open Reader

theorem windowMove_notify (own : GuidPrefix) (r : Reader) (g g' : GUID) (sn : UInt64)
    (payload : Bytes) (ts : Int) (src : Option UDPAddr) :
    WindowMove own r (.data g sn payload ts) g' ((r.notify own g sn src).reader.trackerFor g') := by
  unfold notify
  split_ifs with hskip
  · exact .same (.refl _)
  · by_cases hg : g' = g
    · subst hg
      refine .record sn payload ts rfl ?_ (acknowledge_tracker _ _ _ _ _)
      simp only [Bool.or_eq_true, Bool.not_eq_true', not_or, Bool.not_eq_false] at hskip
      exact hskip.2
    · rw [acknowledge_tracker_ne _ _ _ hg]
      exact .same (.refl _)

theorem windowMove_onHeartbeat (own : GuidPrefix) (r : Reader) (g g' : GUID) (hb : Heartbeat)
    (src : Option UDPAddr) (now : Int) : WindowMove own r (.heartbeat g hb) g'
      ((r.onHeartbeat own g hb src now).reader.trackerFor g') := by
  unfold onHeartbeat
  dsimp only
  split_ifs with hacc hskip
  · exact .same (.refl _)
  · rw [trackerFor_touchLiveliness]
    exact .same (.refl _)
  · by_cases hg : g' = g
    · subst hg
      have h := acknowledge_tracker (r.touchLiveliness g' now) g'
        (((r.touchLiveliness g' now).trackerFor g').initExpected (snToU64 hb.firstSN))
        (snToU64 hb.lastSN) src
      rw [trackerFor_touchLiveliness] at h ⊢
      exact .contact hb rfl h
    · rw [acknowledge_tracker_ne _ _ _ hg, trackerFor_touchLiveliness]
      exact .same (.refl _)

theorem trackerFor_offer (p : Participant) (d : Dispatch) (r : Reader) (g : GUID) :
    (p.offer d r).1.trackerFor g = r.trackerFor g := by
  unfold trackerFor
  rw [(sameMatch_offer p d r).trackers]

/-- An action keeps every reader, its settings, sources and openness. The window of its tracker for
a writer moves in one of three ways (`WindowMove`): not at all, to the first number of a HEARTBEAT
on first contact, or by recording the number of a DATA submessage. -/
theorem readers_act (p : Participant) (i : Input) : ∃ f : Reader → Reader,
    (∀ eid, (p.act i).1.readers.get? eid = (p.readers.get? eid).map f) ∧
    ∀ r, Reader.SameSources r (f r) ∧
      ∀ g, WindowMove p.guidPrefix r i.action g ((f r).trackerFor g) := by
  have hsame : ∀ q : Participant, q.readers = p.readers → ∃ f : Reader → Reader,
      (∀ eid, q.readers.get? eid = (p.readers.get? eid).map f) ∧
      ∀ r, Reader.SameSources r (f r) ∧
        ∀ g, WindowMove p.guidPrefix r i.action g ((f r).trackerFor g) := fun q hq =>
    ⟨id, fun eid => by rw [hq, Option.map_id_fun, id], fun r => ⟨.refl r, fun _ => .same (.refl _)⟩⟩
  cases hstuck : p.stuck with
  | true =>
    rw [act_of_stuck hstuck]
    exact hsame p rfl
  | false =>
    obtain ⟨a, src, now⟩ := i
    cases a with
    | data g sn payload ts =>
      rw [act_data hstuck]
      have htold : ∀ eid, (((p.checkReplay g sn ts).1.notifyReliableReaders g sn src).1).readers.get?
          eid = (p.readers.get? eid).map fun r => (r.notify p.guidPrefix g sn src).reader := by
        intro eid
        rw [get?_notifyReliableReaders, checkReplay_readers, checkReplay_config]
      have hmove := fun r g' => windowMove_notify p.guidPrefix r g g' sn payload ts src
      rcases handleOpened_cases p g sn payload src ts now with ⟨-, h⟩ | ⟨-, -, h⟩ | ⟨-, -, h⟩
      · rw [h]
        exact hsame _ (checkReplay_readers ..)
      · rw [h]
        exact ⟨_, htold, fun r => ⟨r.sameSources_notify _ _ _ _, hmove r⟩⟩
      · rw [h]
        refine ⟨_, fun eid => by rw [get?_dispatchToReaders, htold, Option.map_map], fun r => ⟨?_, ?_⟩⟩
        · exact (r.sameSources_notify _ _ _ _).trans (sameMatch_offer _ _ _).sameSources
        · intro g'
          rw [Function.comp, trackerFor_offer]
          exact hmove r g'
    | heartbeat g hb =>
      rw [act_heartbeat hstuck]
      exact ⟨_, get?_react _ _ _, fun r => ⟨r.sameSources_onHeartbeat _ _ _ _ _,
        fun g' => windowMove_onHeartbeat _ _ _ _ _ _ _⟩⟩
    | ackNack g an =>
      rw [act_ackNack hstuck]
      refine hsame _ ?_
      unfold handleAckNack
      split
      · rfl
      · split_ifs <;> rfl

theorem act_reader {eid : EntityId} (i : Input) (hr : p.readers.get? eid = some r) :
    ∃ r', (p.act i).1.readers.get? eid = some r' ∧ Reader.SameSources r r' ∧
      ∀ g, WindowMove p.guidPrefix r i.action g (r'.trackerFor g) := by
  obtain ⟨f, hget, hf⟩ := p.readers_act i
  exact ⟨f r, by rw [hget, hr, Option.map_some], hf r⟩

theorem act_reader_none {eid : EntityId} (i : Input) (hr : p.readers.get? eid = none) :
    (p.act i).1.readers.get? eid = none := by
  obtain ⟨f, hget, -⟩ := p.readers_act i
  rw [hget, hr, Option.map_none]

/-! ## Effects of an action -/

theorem dispatchToReaders_filter (p : Participant) (d : Dispatch) (eid : EntityId) :
    (p.dispatchToReaders d).2.filter (isDispatchTo eid) =
      ((p.readers.get? eid).map fun r => (p.offer d r).2.effects).getD [] := by
  refine Registry.filter_flatMap _ _ _ _ fun r e he => ?_
  obtain ⟨⟨queued, rfl⟩, -⟩ := offer_effects he
  simp [isDispatchTo]

theorem mem_sendTo {locs : List ReaderLocator} {out : Outgoing} (h : e ∈ sendTo locs out) :
    ∃ dst peer, e = .unicast dst peer out := by
  obtain ⟨lm, -, hlm⟩ := mem_filterMap.1 h
  obtain ⟨dst, -, rfl⟩ := Option.map_eq_some_iff.1 hlm
  exact ⟨dst, lm.guidPrefix, rfl⟩

theorem handleAckNack_effects {an : AckNack} (h : e ∈ (p.handleAckNack an src).2) :
    ∃ w dst peer, p.writers.get? an.writerEntityId = some w ∧
      ((∃ sn msg, w.history.get sn = some msg ∧ e = .unicast dst peer (.message msg)) ∨
        ∃ g, evictedGap w an = some g ∧ e = .unicast dst peer (.gap g)) := by
  unfold handleAckNack at h
  cases hw : p.writers.get? an.writerEntityId with
  | none =>
    rw [hw] at h
    cases h
  | some w =>
    rw [hw] at h
    dsimp only at h
    split_ifs at h
    · cases h
    · rcases mem_append.1 h with h | h
      · obtain ⟨bit, -, hbit⟩ := mem_flatMap.1 h
        split_ifs at hbit
        · cases hmsg : w.history.get (snToU64 an.base + UInt64.ofNat bit) with
          | none =>
            rw [hmsg] at hbit
            cases hbit
          | some msg =>
            rw [hmsg] at hbit
            obtain ⟨dst, peer, rfl⟩ := mem_sendTo hbit
            exact ⟨w, dst, peer, rfl, .inl ⟨_, msg, hmsg, rfl⟩⟩
        · cases hbit
      · unfold gapEffects at h
        cases hgap : evictedGap w an with
        | none =>
          rw [hgap] at h
          cases h
        | some g =>
          rw [hgap] at h
          rcases mem_append.1 h with h | h
          · obtain ⟨addr, -, rfl⟩ := Option.map_eq_some_iff.1 (Option.mem_toList.1 h)
            exact ⟨w, addr, zeroPrefix, rfl, .inr ⟨g, hgap, rfl⟩⟩
          · obtain ⟨dst, peer, rfl⟩ := mem_sendTo h
            exact ⟨w, dst, peer, rfl, .inr ⟨g, hgap, rfl⟩⟩

theorem isUnicast_handleAckNack {an : AckNack} (h : e ∈ (p.handleAckNack an src).2) :
    e.isUnicast := by
  obtain ⟨w, dst, peer, -, ⟨sn, msg, -, rfl⟩ | ⟨g, -, rfl⟩⟩ := handleAckNack_effects h
  · rfl
  · rfl

theorem notify_effects (h : e ∈ (r.notify own g sn src).effects) :
    r.IsAckNack g ((r.trackerFor g).record sn).1 sn e := by
  unfold notify at h
  split_ifs at h
  · cases h
  · exact acknowledge_effects h

theorem notify_tracker (hrel : r.reliable) (hacc : r.acceptsSource own g) :
    RecvTracker.SameWindow ((r.trackerFor g).record sn).1
      ((r.notify own g sn src).reader.trackerFor g) := by
  unfold notify
  rw [if_neg (by simp [hrel, hacc])]
  exact acknowledge_tracker _ _ _ _ _

theorem onHeartbeat_effects {hb : Heartbeat} (h : e ∈ (r.onHeartbeat own g hb src now).effects) :
    r.IsAckNack g ((r.trackerFor g).initExpected (snToU64 hb.firstSN)) (snToU64 hb.lastSN) e := by
  unfold onHeartbeat at h
  dsimp only at h
  split_ifs at h
  · cases h
  · cases h
  · have hack := acknowledge_effects h
    rw [trackerFor_touchLiveliness] at hack
    have heid := (r.sameMatch_touchLiveliness g now).eid
    unfold Reader.IsAckNack at hack ⊢
    rwa [heid] at hack

theorem notifyReliableReaders_dispatches (p : Participant) (g : GUID) (sn : UInt64)
    (src : Option UDPAddr) (eid : EntityId) :
    (p.notifyReliableReaders g sn src).2.filter (isDispatchTo eid) = [] := by
  refine filter_isDispatchTo_of_unicast (fun e he => ?_) eid
  obtain ⟨r, -, he⟩ := mem_flatMap.1 he
  exact (notify_effects he).isUnicast

/-- An action hands a reader at most one sample, and only if it is a DATA submessage of a writer the
reader accepts; the sample is the opened payload. -/
theorem act_dispatches (p : Participant) (i : Input) (eid : EntityId) :
    (p.act i).2.filter (isDispatchTo eid) = [] ∨
      ∃ r r' g sn payload ts queued, i.action = .data g sn payload ts ∧
        p.readers.get? eid = some r ∧ (p.act i).1.readers.get? eid = some r' ∧
        r.acceptsSource p.guidPrefix g ∧ (p.checkReplay g sn ts).2.2 ∧ (r.reliable →
          RecvTracker.SameWindow ((r.trackerFor g).record sn).1 (r'.trackerFor g)) ∧
        (p.act i).2.filter (isDispatchTo eid) =
          [.dispatch eid g ⟨sn, none⟩ ((remoteDispatch g sn payload ts i.now).sample r) queued] := by
  cases hstuck : p.stuck with
  | true =>
    rw [act_of_stuck hstuck]
    exact .inl rfl
  | false =>
    obtain ⟨a, src, now⟩ := i
    cases a with
    | data g sn payload ts =>
      rw [act_data hstuck]
      have hchk := checkReplay_dispatches p g sn ts eid
      have htold := notifyReliableReaders_dispatches (p.checkReplay g sn ts).1 g sn src eid
      rcases handleOpened_cases p g sn payload src ts now with
        ⟨-, h⟩ | ⟨-, -, h⟩ | ⟨hpass, -, h⟩
      · rw [h]
        exact .inl hchk
      · rw [h, filter_append, hchk, htold]
        exact .inl rfl
      · rw [h, filter_append, filter_append, hchk, htold, nil_append,
          nil_append, dispatchToReaders_filter, get?_dispatchToReaders,
          get?_notifyReliableReaders, checkReplay_readers, checkReplay_config]
        cases hr : p.readers.get? eid with
        | none => exact .inl rfl
        | some r =>
          have hsame : Reader.SameSources r (r.notify p.guidPrefix g sn src).reader :=
            r.sameSources_notify _ _ _ _
          have heid : r.eid = eid := (Registry.get?_eq_some.1 hr).2
          rcases offer_effects_eq ((p.checkReplay g sn ts).1.notifyReliableReaders g sn src).1
            (remoteDispatch g sn payload ts now) (r.notify p.guidPrefix g sn src).reader with
            hoff | ⟨queued, hoff⟩
          · exact .inl hoff
          · have hacc : (r.notify p.guidPrefix g sn src).reader.acceptsSource
                (p.checkReplay g sn ts).1.guidPrefix g :=
              (offer_effects (hoff ▸ mem_singleton_self _)).2.2.2.1
            rw [hsame.acceptsSource, checkReplay_config] at hacc
            rw [sample_congr hsame.cfg, hsame.eid, heid] at hoff
            refine .inr ⟨r, _, g, sn, payload, ts, queued, rfl, rfl, rfl, hacc, hpass, ?_, hoff⟩
            intro hrel
            rw [trackerFor_offer]
            exact notify_tracker hrel hacc
    | heartbeat g hb =>
      refine .inl ?_
      rw [act_heartbeat hstuck]
      refine filter_isDispatchTo_of_unicast (fun e he => ?_) eid
      obtain ⟨r, -, he⟩ := mem_flatMap.1 he
      exact (onHeartbeat_effects he).isUnicast
    | ackNack g an =>
      rw [act_ackNack hstuck]
      exact .inl (filter_isDispatchTo_of_unicast (fun e he => isUnicast_handleAckNack he) eid)

theorem act_data_effects {payload : Bytes} {ts : Int}
    (h : e ∈ (p.act ⟨.data g sn payload ts, src, now⟩).2) :
    (∃ verdict, e = .replayCheck g sn ts verdict) ∨
      (∃ r ∈ p.readers.items, r.IsAckNack g ((r.trackerFor g).record sn).1 sn e) ∨
      ∃ eid sample queued, e = .dispatch eid g ⟨sn, none⟩ sample queued := by
  cases hstuck : p.stuck with
  | true =>
    rw [act_of_stuck hstuck] at h
    cases h
  | false =>
    rw [act_data hstuck] at h
    have hchk : e ∈ (p.checkReplay g sn ts).2.1 → ∃ verdict, e = .replayCheck g sn ts verdict := by
      intro he
      unfold checkReplay at he
      split at he
      · cases he
      · exact ⟨_, mem_singleton.1 he⟩
    have htold : e ∈ ((p.checkReplay g sn ts).1.notifyReliableReaders g sn src).2 →
        ∃ r ∈ p.readers.items, r.IsAckNack g ((r.trackerFor g).record sn).1 sn e := by
      intro he
      obtain ⟨r, hr, he⟩ := mem_flatMap.1 he
      rw [checkReplay_readers] at hr
      exact ⟨r, hr, notify_effects he⟩
    rcases handleOpened_cases p g sn payload src ts now with ⟨-, heq⟩ | ⟨-, -, heq⟩ | ⟨-, -, heq⟩
    · rw [heq] at h
      exact .inl (hchk h)
    · rw [heq] at h
      rcases mem_append.1 h with h | h
      · exact .inl (hchk h)
      · exact .inr (.inl (htold h))
    · rw [heq] at h
      rcases mem_append.1 h with h | h
      · exact .inl (hchk h)
      · rcases mem_append.1 h with h | h
        · exact .inr (.inl (htold h))
        · obtain ⟨r, -, ⟨queued, hdisp⟩, -⟩ := dispatchToReaders_effects h
          exact .inr (.inr ⟨_, _, queued, hdisp⟩)

theorem act_heartbeat_effects {hb : Heartbeat} (h : e ∈ (p.act ⟨.heartbeat g hb, src, now⟩).2) :
    ∃ r ∈ p.readers.items,
      r.IsAckNack g ((r.trackerFor g).initExpected (snToU64 hb.firstSN)) (snToU64 hb.lastSN) e := by
  cases hstuck : p.stuck with
  | true =>
    rw [act_of_stuck hstuck] at h
    cases h
  | false =>
    rw [act_heartbeat hstuck] at h
    obtain ⟨r, hr, he⟩ := mem_flatMap.1 h
    exact ⟨r, hr, onHeartbeat_effects he⟩

end Participant

end GoDDS
