import GoDDS.Rtps.Life

/-!
# What a life does to a reader
-/

namespace GoDDS

open ByteCodec Go Security

namespace Reader

/-! ## Clocks -/

/-- What a reader knows of a writer's liveliness. -/
structure Clock where
  lease : Option Int
  seen : Option Int
  fired : Option Bool

def clock (r : Reader) (g : GUID) : Clock := ⟨r.writerLease g, r.lastSeenAlive g, r.livelinessFired g⟩

/-- A sign of life. -/
def Clock.touch (c : Clock) (now : Int) : Clock :=
  if c.lease.isSome then { c with seen := some now, fired := some false } else c

variable (r : Reader)

variable (g : GUID)

theorem clock_touchLiveliness (now : Int) :
    (r.touchLiveliness g now).clock g = (r.clock g).touch now := by
  unfold touchLiveliness Clock.touch clock
  cases hlease : r.writerLease g with
  | none => simp [hlease]
  | some lease => simp [hlease]

theorem clock_touchLiveliness_ne {g g' : GUID} (h : g' ≠ g) (now : Int) :
    (r.touchLiveliness g now).clock g' = r.clock g' := by
  unfold touchLiveliness clock
  cases r.writerLease g with
  | none => rfl
  | some lease => simp [Table.set_ne _ _ h]

theorem clock_registerWriterLease (lease now : Int) :
    (r.registerWriterLease g lease now).clock g = ⟨some lease, some now, some false⟩ := by
  simp [clock, registerWriterLease]

theorem clock_registerWriterLease_ne {g g' : GUID} (h : g' ≠ g) (lease now : Int) :
    (r.registerWriterLease g lease now).clock g' = r.clock g' := by
  simp [clock, registerWriterLease, Table.set_ne _ _ h]

theorem clock_passesTimeBasedFilter (source g : GUID) (now : Int) :
    (r.passesTimeBasedFilter source now).1.clock g = r.clock g := by
  unfold passesTimeBasedFilter
  split_ifs <;> rfl

theorem clock_push (s : Sample) (g : GUID) : (r.push s).1.clock g = r.clock g := by
  unfold push
  cases r.backPressure with
  | block => rfl
  | _ =>
    split_ifs <;> rfl

theorem clock_acknowledge (rt : RecvTracker) (lastSN : UInt64) (src : Option UDPAddr) (g' : GUID) :
    (r.acknowledge g rt lastSN src).reader.clock g' = r.clock g' := by
  unfold acknowledge
  cases rt.missing lastSN with
  | none => rfl
  | some m =>
    cases src with
    | none => rfl
    | some addr =>
      dsimp only
      split_ifs <;> rfl

theorem clock_notify (own : GuidPrefix) (g : GUID) (sn : UInt64) (src : Option UDPAddr)
    (g' : GUID) : (r.notify own g sn src).reader.clock g' = r.clock g' := by
  unfold notify
  split_ifs
  · rfl
  · exact clock_acknowledge r g _ _ src g'

theorem clock_onHeartbeat (own : GuidPrefix) (g : GUID) (hb : Heartbeat)
    (src : Option UDPAddr) (now : Int) (g' : GUID) :
    (r.onHeartbeat own g hb src now).reader.clock g' =
      if r.acceptsSource own g then (r.touchLiveliness g now).clock g' else r.clock g' := by
  unfold onHeartbeat
  dsimp only
  by_cases haccept : r.acceptsSource own g
  · rw [if_pos haccept, if_neg (by simp [haccept])]
    split_ifs
    · rfl
    · exact clock_acknowledge _ g _ _ src g'
  · rw [if_neg haccept, if_pos (by simpa using haccept)]

/-- The sources are the same, and so are the clocks of other participants' writers. -/
structure Unmoved (own : GuidPrefix) (r r' : Reader) : Prop extends SameSources r r' where
  clock : ∀ g, g.guidPrefix ≠ own → r'.clock g = r.clock g

theorem Unmoved.refl (own : GuidPrefix) (r : Reader) : Unmoved own r r := ⟨.refl r, fun _ _ => rfl⟩

/-- No clock but that of `g` has moved. -/
structure Heard (g : GUID) (r r' : Reader) : Prop extends SameSources r r' where
  clock : ∀ g', g' ≠ g → r'.clock g' = r.clock g'

theorem Heard.refl (r : Reader) : Heard g r r := ⟨.refl r, fun _ _ => rfl⟩

theorem Heard.trans {g : GUID} {r r' r'' : Reader} (h : Heard g r r') (h' : Heard g r' r'') :
    Heard g r r'' :=
  ⟨h.toSameSources.trans h'.toSameSources, fun g' hg => (h'.clock g' hg).trans (h.clock g' hg)⟩

theorem unmoved_touchLiveliness (now : Int) : Unmoved g.guidPrefix r (r.touchLiveliness g now) := by
  refine ⟨(sameMatch_touchLiveliness r g now).sameSources, fun g' hg' => ?_⟩
  exact clock_touchLiveliness_ne r (fun heq => hg' (congrArg GUID.guidPrefix heq)) now

theorem unmoved_registerWriterLease (lease now : Int) :
    Unmoved g.guidPrefix r (r.registerWriterLease g lease now) := by
  refine ⟨⟨rfl, rfl, rfl⟩, fun g' hg' => ?_⟩
  exact clock_registerWriterLease_ne r (fun heq => hg' (congrArg GUID.guidPrefix heq)) lease now

end Reader

namespace Participant

open Reader (Unmoved SameSources)

/-! ## Readers of two states -/

/-- `q` has the readers of `p`, each related to what it was. -/
def ReadersRel (R : Reader → Reader → Prop) (p q : Participant) : Prop :=
  ∀ eid, Option.Rel R (p.readers.get? eid) (q.readers.get? eid)

variable {R : Reader → Reader → Prop} {p q s : Participant}

theorem readersRel_of_readers (hrefl : ∀ r, R r r) (h : q.readers = p.readers) :
    ReadersRel R p q := by
  intro eid
  rw [h]
  cases p.readers.get? eid with
  | none => exact .none
  | some r => exact .some (hrefl r)

theorem readersRel_of_map (heid : ∀ r r', R r r' → r'.eid = r.eid) {f : Reader → Reader}
    (hR : ∀ r, R r (f r)) (h : q.readers.items = p.readers.items.map f) : ReadersRel R p q := by
  intro eid
  have hget : q.readers.get? eid = (p.readers.get? eid).map f := by
    unfold Registry.get?
    rw [h, List.find?_map]
    simp only [Function.comp_def, heid _ _ (hR _)]
  rw [hget]
  cases p.readers.get? eid with
  | none => exact .none
  | some r => exact .some (hR r)

theorem ReadersRel.mono {S : Reader → Reader → Prop} (h : ReadersRel R p q)
    (hRS : ∀ r r', R r r' → S r r') : ReadersRel S p q := by
  intro eid
  have hrel := h eid
  generalize p.readers.get? eid = o, q.readers.get? eid = o' at hrel ⊢
  cases hrel with
  | none => exact .none
  | some hr => exact .some (hRS _ _ hr)

theorem ReadersRel.mem (h : ReadersRel R p q) {r' : Reader} (hr' : r' ∈ q.readers.items) :
    ∃ r ∈ p.readers.items, R r r' := by
  have hget : q.readers.get? r'.eid = some r' := Registry.get?_eq_some.2 ⟨hr', rfl⟩
  have hrel := h r'.eid
  rw [hget] at hrel
  cases hr : p.readers.get? r'.eid with
  | none =>
    rw [hr] at hrel
    cases hrel
  | some r =>
    rw [hr] at hrel
    cases hrel with
    | some hR => exact ⟨r, (Registry.get?_eq_some.1 hr).1, hR⟩

theorem ReadersRel.get? (h : ReadersRel R p q) {eid : EntityId} {r : Reader}
    (hr : p.readers.get? eid = some r) : ∃ r', q.readers.get? eid = some r' ∧ R r r' := by
  have hrel := h eid
  rw [hr] at hrel
  cases hr' : q.readers.get? eid with
  | none =>
    rw [hr'] at hrel
    cases hrel
  | some r' =>
    rw [hr'] at hrel
    cases hrel with
    | some hR => exact ⟨r', rfl, hR⟩

/-! ## Calls -/

theorem clock_offer (p : Participant) (d : Dispatch) (r : Reader) (g : GUID) :
    (p.offer d r).1.clock g =
      if d.topicFits r = true ∧ r.acceptsSource p.guidPrefix d.source = true then
        (r.touchLiveliness d.source d.now).clock g else r.clock g := by
  unfold offer
  dsimp only
  by_cases hfits : d.topicFits r
  · by_cases haccept : r.acceptsSource p.guidPrefix d.source
    · rw [if_pos (And.intro hfits haccept), if_neg (by simp [hfits]), if_neg (by simp [haccept])]
      have hpass := (r.touchLiveliness d.source d.now).clock_passesTimeBasedFilter d.source g d.now
      by_cases hpart : d.source.guidPrefix = p.guidPrefix ∧ (!partitionsMatch d.writerPartitions
          (r.touchLiveliness d.source d.now).partitions)
      · rw [if_pos hpart]
      rw [if_neg hpart]
      split_ifs
      · rfl
      · exact hpass
      · exact hpass
      · unfold deliverToReader
        split_ifs
        · exact hpass
        · exact (Reader.clock_push _ _ g).trans hpass
    · rw [if_neg (by simp [hfits]), if_pos (by simpa using haccept), if_neg fun h => haccept h.2]
  · rw [if_pos (by simpa using hfits), if_neg fun h => hfits h.1]

theorem unmoved_offer (p : Participant) (d : Dispatch) (r : Reader)
    (h : d.source.guidPrefix = p.guidPrefix) : Unmoved p.guidPrefix r (p.offer d r).1 := by
  refine ⟨(sameMatch_offer p d r).sameSources, fun g hg => ?_⟩
  rw [clock_offer]
  split_ifs
  · exact (r.unmoved_touchLiveliness d.source d.now).clock g (h ▸ hg)
  · rfl

theorem readersRel_dispatchToReaders (d : Dispatch) (h : d.source.guidPrefix = p.guidPrefix) :
    ReadersRel (Unmoved p.guidPrefix) p (p.dispatchToReaders d).1 :=
  readersRel_of_map (fun _ _ h => h.eid) (fun r => p.unmoved_offer d r h) rfl

variable (p)

theorem readers_sendHeartbeat (w : Writer) :
    (p.sendHeartbeat w).1.readers = p.readers := by
  unfold sendHeartbeat
  cases w.heartbeat <;> rfl

theorem readers_closeWriter (eid : EntityId) :
    (p.closeWriter eid).readers = p.readers := by
  unfold closeWriter unregisterOwnership
  cases p.writers.get? eid with
  | none => rfl
  | some w =>
    dsimp only
    split_ifs <;> rfl

theorem readersRel_publish (w : Writer) (payload : Bytes) (now : Int)
    (msgs : List Bytes) : ReadersRel (Unmoved p.guidPrefix) p (p.publish w payload now msgs).1 := by
  have hdelivered : ReadersRel (Unmoved p.guidPrefix) p
      ((p.setWriter (w.keep msgs)).deliverLocally (w.keep msgs) payload now).1 := by
    unfold deliverLocally persistFlush
    dsimp only
    split_ifs
    all_goals exact readersRel_dispatchToReaders _ rfl
  unfold publish
  dsimp only
  split_ifs
  · intro eid
    rw [readers_sendHeartbeat]
    exact hdelivered eid
  · exact hdelivered

theorem readersRel_write (w : Writer) (payload rnd : Bytes) (now : Int) :
    ReadersRel (Unmoved p.guidPrefix) p (p.write w payload rnd now).participant := by
  have hsame : ReadersRel (Unmoved p.guidPrefix) p p := readersRel_of_readers (.refl _) rfl
  rcases p.write_cases w payload rnd now with ⟨e, h⟩ | ⟨e, h⟩ | ⟨wire, msgs, -, -, h⟩
  · rw [h]
    exact hsame
  · rw [h]
    exact hsame
  · rw [h]
    exact readersRel_publish ((p.countWrite w.topic payload).setWriter { w with seq := w.seq + 1 }) _
      payload now msgs

theorem readersRel_watchWriter (w : WriterConfig) (now : Int) :
    ReadersRel (Unmoved p.guidPrefix) p (p.watchWriter w now) := by
  unfold watchWriter
  split_ifs
  · refine readersRel_of_map (fun _ _ h => h.eid) (fun r => ?_) rfl
    split_ifs
    · exact r.unmoved_registerWriterLease ⟨p.guidPrefix, w.eid⟩ _ now
    · exact .refl _ r
  · exact readersRel_of_readers (.refl _) rfl

theorem readersRel_addWriter (w : WriterConfig) (typeName : Str) (now : Int) :
    ReadersRel (Unmoved p.guidPrefix) p (p.addWriter w typeName now).1 := by
  have hwatch := readersRel_watchWriter
    ({ p with entityCounter := p.entityCounter + 1 }.registerOwnership w) w now
  have hown : ({ p with entityCounter := p.entityCounter + 1 }.registerOwnership w).readers =
      p.readers := by
    unfold registerOwnership
    split_ifs <;> rfl
  have hcfg : ({ p with entityCounter := p.entityCounter + 1 }.registerOwnership w).guidPrefix =
      p.guidPrefix := by
    unfold registerOwnership
    split_ifs <;> rfl
  intro eid
  have hrel := hwatch eid
  rw [hown, hcfg] at hrel
  exact hrel

variable {p}

/-- The reader a request adds. -/
def newReader (p : Participant) (req : Request) (now : Int) : Reader :=
  (p.lateJoin req.qos (p.matchWriters (p.watchWriters
    (Reader.new (p.readerConfig req.topic req.qos req.cfg req.contentFilter)) now) now)).1

/-- What a call makes of the readers. -/
inductive ReadersCall (p : Participant) : Call → Participant → Prop
  | kept {c : Call} {q : Participant} (hrefuses : p.Refuses c)
      (h : ReadersRel (Unmoved p.guidPrefix) p q) : ReadersCall p c q
  | created {c : Call} {q : Participant} (req : Request)
      (hreq : request p.config c = some req) (haccept : p.AcceptsReader req.topic)
      (h : q.readers = p.readers.insert (p.newReader req c.creationTime)) : ReadersCall p c q
  | removed (eid : EntityId) : ReadersCall p (.unsubscribe eid) (p.unsubscribe eid)
  | polled {q : Participant} (eid : EntityId) (order : List GUID) (now : Int)
      (h : q.readers = p.readers.modify eid (fun r => (r.checkLeases now order).1)
        fun r => (Reader.sameMatch_checkLeases r now order).eid) :
      ReadersCall p (.checkLiveliness eid order now) q

/-- A call creates a reader, removes one, polls the leases of one, or leaves what all readers know
of remote writers alone. -/
theorem readers_call (p : Participant) (c : Call) : ReadersCall p c (p.call c).1 := by
  obtain ⟨q, effs, hcall, hcalled⟩ := p.call_cases c
  rw [hcall]
  cases hcalled with
  | refused h => exact .kept h (readersRel_of_readers (.refl _) rfl)
  | writerAdded => exact .kept (refuses_of_request rfl) (p.readersRel_addWriter _ _ _)
  | readerAdded req typeName hreq haccept => exact .created req hreq haccept rfl
  | written => exact .kept (refuses_of_request rfl) (p.readersRel_write _ _ _ _)
  | read eid =>
    refine .kept (refuses_of_request rfl) (readersRel_of_map (fun _ _ h => h.eid) (fun r => ?_) rfl)
    split_ifs
    · exact ⟨⟨rfl, rfl, rfl⟩, fun _ _ => rfl⟩
    · exact .refl _ r
  | writerClosed eid =>
    exact .kept (refuses_of_request rfl) (readersRel_of_readers (.refl _) (p.readers_closeWriter eid))
  | unsubscribed eid => exact .removed eid
  | closed eids =>
    refine .kept (refuses_of_request rfl) (readersRel_of_readers (.refl _) ?_)
    exact List.foldlRecOn _ _ (motive := fun q : Participant => q.readers = p.readers) rfl
      fun q hq eid _ => (q.readers_closeWriter eid).trans hq
  | heartbeat =>
    exact .kept (refuses_of_request rfl) (readersRel_of_readers (.refl _) (p.readers_sendHeartbeat _))
  | asserted _ htouch =>
    refine .kept (refuses_of_request rfl) (readersRel_of_map (fun _ _ h => h.eid) (fun r => ?_) rfl)
    rcases htouch r with h | h
    · rw [h]
      exact .refl _ r
    · rw [h]
      exact r.unmoved_touchLiveliness ⟨p.guidPrefix, _⟩ _
  | polled => exact .polled _ _ _ rfl

/-- The writer or reader an action comes from. -/
def Action.source : Action → GUID
  | .data g _ _ _ => g
  | .heartbeat g _ => g
  | .ackNack g _ => g

theorem heard_offer (d : Dispatch) (r : Reader) : Reader.Heard d.source r (p.offer d r).1 := by
  refine ⟨(sameMatch_offer p d r).sameSources, fun g hg => ?_⟩
  rw [clock_offer]
  split_ifs
  · exact r.clock_touchLiveliness_ne hg d.now
  · rfl

theorem heard_onHeartbeat (own : GuidPrefix) (r : Reader) (g : GUID) (hb : Heartbeat)
    (src : Option UDPAddr) (now : Int) : Reader.Heard g r (r.onHeartbeat own g hb src now).reader := by
  refine ⟨r.sameSources_onHeartbeat own g hb src now, fun g' hg' => ?_⟩
  rw [Reader.clock_onHeartbeat]
  split_ifs
  · exact r.clock_touchLiveliness_ne hg' now
  · rfl

variable (p)

theorem readers_handleAckNack (an : AckNack) (src : Option UDPAddr) :
    (p.handleAckNack an src).1.readers = p.readers := by
  unfold handleAckNack
  cases p.writers.get? an.writerEntityId with
  | none => rfl
  | some w =>
    dsimp only
    split_ifs <;> rfl

/-- User traffic only winds the clock of the writer it comes from. -/
theorem heard_act (i : Input) :
    ReadersRel (Reader.Heard i.action.source) p (p.act i).1 := by
  have hsame : ∀ q : Participant, q.readers = p.readers →
      ReadersRel (Reader.Heard i.action.source) p q := fun q => readersRel_of_readers (.refl _)
  cases hstuck : p.stuck with
  | true =>
    rw [act_of_stuck hstuck]
    exact hsame p rfl
  | false =>
    obtain ⟨a, src, now⟩ := i
    cases a with
    | data g sn payload ts =>
      have hchecked : ∀ eid, (p.checkReplay g sn ts).1.readers.get? eid = p.readers.get? eid :=
        fun eid => by rw [checkReplay_readers]
      rw [act_data hstuck]
      rcases handleOpened_cases p g sn payload src ts now with ⟨-, h⟩ | ⟨-, -, h⟩ | ⟨-, -, h⟩
      · rw [h]
        exact hsame _ (p.checkReplay_readers g sn ts)
      · rw [h]
        intro eid
        rw [get?_notifyReliableReaders, hchecked]
        cases p.readers.get? eid with
        | none => exact .none
        | some r =>
          exact .some ⟨r.sameSources_notify _ _ _ _, fun g' _ => r.clock_notify _ _ _ _ g'⟩
      · rw [h]
        intro eid
        rw [get?_dispatchToReaders, get?_notifyReliableReaders, hchecked]
        cases p.readers.get? eid with
        | none => exact .none
        | some r =>
          refine .some (Reader.Heard.trans ⟨r.sameSources_notify _ _ _ _, fun g' _ => ?_⟩
            (heard_offer (remoteDispatch g sn payload ts now) _))
          exact r.clock_notify _ _ _ _ g'
    | heartbeat g hb =>
      rw [act_heartbeat hstuck]
      exact readersRel_of_map (fun _ _ h => h.eid)
        (fun r => heard_onHeartbeat p.guidPrefix r g hb src now) rfl
    | ackNack g an =>
      rw [act_ackNack hstuck]
      exact hsame _ (p.readers_handleAckNack an src)

theorem readers_discoverPeer (proxy : ParticipantProxy) (now : Int) :
    (p.discoverPeer proxy now).1.readers = p.readers := by
  obtain ⟨n, hn⟩ := p.discoverPeer_eq proxy now
  rw [hn]
  rfl

variable {p}

theorem config_matchWriter (info : EndpointInfo) (now : Int) (r : Reader) :
    (matchWriter info now r).config = r.config := by
  unfold matchWriter
  split_ifs <;> rfl

variable (p)

theorem get?_onRemoteWriter (info : EndpointInfo) (l : Locator) (now : Int)
    (eid : EntityId) :
    (p.onRemoteWriter info l now).readers.get? eid = (p.readers.get? eid).map fun r =>
      if r.eid ∈ p.matchedEIDs info then matchWriter info now r else r :=
  Registry.get?_map _ _ (fun r => by split_ifs <;> simp [eid_matchWriter]) _

theorem readers_evictExpired (now : Int) :
    (p.evictExpired now).1.readers = p.readers :=
  evictExpired_induction (J := fun q => q.readers = p.readers) rfl fun _ _ hq => hq

end Participant

end GoDDS
