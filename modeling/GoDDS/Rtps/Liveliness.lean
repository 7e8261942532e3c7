import GoDDS.Rtps.Causes
import GoDDS.Rtps.Eviction

/-!
# Lost writers are reported once
-/

namespace GoDDS

open ByteCodec Go Security List Registry ReaderConfig FixedBytes Effect Option Run ParticipantConfig

namespace Reader

/-! ## Polls -/

/-- Leases run from the match or from the last DATA or HEARTBEAT. -/
def Clock.expired (c : Clock) (now : Int) : Bool :=
  match c.lease with
  | none => false
  | some lease => c.fired ≠ some true && lease < now - c.seen.getD zeroTime

def Clock.poll (c : Clock) (now : Int) : Clock :=
  if c.expired now then { c with fired := some true } else c

theorem Clock.expired_poll (c : Clock) (now : Int) : (c.poll now).expired now = false := by
  unfold poll
  split_ifs with h
  · unfold expired
    cases c.lease with
    | none => rfl
    | some lease => simp
  · simpa using h

theorem Clock.poll_poll (c : Clock) (now : Int) : (c.poll now).poll now = c.poll now := by
  rw [poll, c.expired_poll now, if_neg Bool.false_ne_true]

theorem Clock.expired_mk (lease s : Int) (fired : Bool) (now : Int) :
    expired ⟨some lease, some s, some fired⟩ now = (!fired && decide (lease < now - s)) := by
  cases fired <;> rfl

theorem Clock.poll_mk (lease s : Int) (fired : Bool) (now : Int) :
    poll ⟨some lease, some s, some fired⟩ now =
      ⟨some lease, some s, some (fired || expired ⟨some lease, some s, some fired⟩ now)⟩ := by
  unfold poll
  split_ifs with h
  · rw [h, Bool.or_true]
  · rw [Bool.eq_false_of_not_eq_true h, Bool.or_false]

theorem clock_checkLease (r : Reader) (g : GUID) (now : Int) :
    (r.checkLease g now).1.clock g = (r.clock g).poll now ∧
      (r.checkLease g now).2 = (r.clock g).expired now := by
  unfold checkLease Clock.poll Clock.expired clock
  cases hlease : r.writerLease g with
  | none => simp [hlease]
  | some lease =>
    dsimp only
    by_cases hfired : r.livelinessFired g = some true
    · rw [if_pos hfired]
      simp [hlease, hfired]
    · rw [if_neg hfired]
      by_cases hlate : now - (r.lastSeenAlive g).getD zeroTime > lease
      · have hlate' : lease < now - (r.lastSeenAlive g).getD zeroTime := hlate
        rw [if_pos hlate]
        simp [hlease, hfired, hlate']
      · have hlate' : ¬ lease < now - (r.lastSeenAlive g).getD zeroTime := hlate
        rw [if_neg hlate]
        simp [hlease, hlate']

theorem clock_checkLease_ne (r : Reader) {g g' : GUID} (h : g' ≠ g) (now : Int) :
    (r.checkLease g now).1.clock g' = r.clock g' := by
  unfold checkLease clock
  cases r.writerLease g with
  | none => rfl
  | some lease =>
    dsimp only
    split_ifs
    · rfl
    · simp [Table.set_ne _ _ h]
    · rfl

theorem clock_checkLeases (r : Reader) (now : Int) (order : List GUID) (g : GUID) :
    (r.checkLeases now order).1.clock g = (if g ∈ order then (r.clock g).poll now else r.clock g) ∧
      (g ∈ (r.checkLeases now order).2 ↔ g ∈ order ∧ (r.clock g).expired now) := by
  induction order generalizing r with
  | nil => simp [checkLeases]
  | cons g' order ih =>
    obtain ⟨hclock, hlost⟩ := ih (r.checkLease g' now).1
    rw [checkLeases]
    rw [hclock]
    by_cases hg : g = g'
    · subst hg
      obtain ⟨hpoll, hexpired⟩ := r.clock_checkLease g now
      rw [hpoll, Clock.expired_poll] at hlost
      rw [hpoll, hexpired, Clock.poll_poll, ite_self, if_pos mem_cons_self]
      refine ⟨rfl, ?_⟩
      split_ifs with hfired
      · simp [hfired]
      · simp [hfired, hlost]
    · rw [clock_checkLease_ne r hg] at hlost ⊢
      simp only [mem_cons, hg, false_or, true_and]
      split_ifs
      · rw [mem_cons, or_iff_right hg]
        exact hlost
      · exact hlost

end Reader

variable {e : Effect} {info : EndpointInfo} {lease now s : Int} {p : Participant} {t : Turn}

namespace Participant

/-! ## Only polls report -/

def reportsLost : Effect → Bool
  | .livelinessLost _ _ => true
  | _ => false

theorem not_reportsLost_of_sends (h : sends e) : reportsLost e = false := by
  cases e <;> first | rfl | cases h

theorem not_reportsLost_act {i : Input} (h : e ∈ (p.act i).2) : reportsLost e = false := by
  obtain ⟨a, src, now⟩ := i
  cases a with
  | data g sn payload ts =>
    rcases act_data_effects h with ⟨verdict, rfl⟩ | ⟨r, -, addr, m, count, -, -, rfl⟩ |
      ⟨eid, sample, queued, rfl⟩ <;> rfl
  | heartbeat g hb =>
    obtain ⟨r, -, addr, m, count, -, -, rfl⟩ := act_heartbeat_effects h
    rfl
  | ackNack g an =>
    cases hstuck : p.stuck with
    | true =>
      rw [act_of_stuck hstuck] at h
      cases h
    | false =>
      rw [act_ackNack hstuck] at h
      obtain ⟨w, dst, peer, -, ⟨sn, msg, -, rfl⟩ | ⟨gap, -, rfl⟩⟩ := handleAckNack_effects h <;> rfl

theorem not_reportsLost_turn (h : e ∈ (p.turn t).2)
    (hpoll : ∀ eid order now, t ≠ .call (.checkLiveliness eid order now)) :
    reportsLost e = false := by
  cases causes_turn h with
  | written hget h =>
    rcases write_effects h with hsends | ⟨r, -, ⟨origin, sample, queued, rfl⟩, -⟩
    · exact not_reportsLost_of_sends hsends
    · rfl
  | acted h => exact not_reportsLost_act h
  | sent hsends => exact not_reportsLost_of_sends hsends
  | joined => rfl
  | liveliness => rfl
  | polled h => exact absurd rfl (hpoll _ _ _)

theorem poll_of_livelinessLost {eid : EntityId} {g : GUID}
    (h : .livelinessLost eid g ∈ (p.turn t).2) :
    ∃ order now, t = .call (.checkLiveliness eid order now) := by
  by_cases hpoll : ∃ eid' order now, t = .call (.checkLiveliness eid' order now)
  · obtain ⟨eid', order, now, rfl⟩ := hpoll
    change _ ∈ (p.checkLiveliness eid' order now).2 at h
    unfold checkLiveliness at h
    cases hget : p.readers.get? eid' with
    | none => simp [hget] at h
    | some r =>
      rw [hget] at h
      dsimp only at h
      split_ifs at h
      · cases h
      · obtain ⟨g', -, heq⟩ := List.mem_map.1 h
        rw [(livelinessLost.inj heq).1]
        exact ⟨order, now, rfl⟩
  · have hno := not_reportsLost_turn h fun eid' order now ht => hpoll ⟨eid', order, now, ht⟩
    cases hno

/-! ## A silence -/

/-- The turn brings DATA or a HEARTBEAT of the writer to the readers, at time `s`. -/
def Hears (p : Participant) (g : GUID) (s : Int) : Turn → Prop
  | .act ⟨.data g' sn _ ts, src, now⟩ => g' = g ∧ now = s ∧ p.stuck = false ∧
      (p.checkReplay g sn ts).2.2 = true ∧
      ((p.checkReplay g sn ts).1.notifyReliableReaders g sn src).1.stuck = false
  | .act ⟨.heartbeat g' _, _, now⟩ => g' = g ∧ now = s ∧ p.stuck = false
  | _ => False

/-- An announcement of the writer starts the lease again and forgets that its expiry was reported.
-/
def Announces (p : Participant) (eid : EntityId) (g : GUID) : Turn → Prop
  | .remoteWriter info _ _ => info.guid = g ∧ eid ∈ p.matchedEIDs info ∧ 0 < info.livelinessLease
  | _ => False

def KeepsReader (p : Participant) (eid : EntityId) : Turn → Prop
  | .call (.unsubscribe eid') => eid' ≠ eid
  | .call c => p.Refuses c ∨ entityIdForReader (p.entityCounter + 1) ≠ eid
  | _ => True

def Watches (p : Participant) (eid : EntityId) (g : GUID) (c : Reader.Clock) : Prop :=
  ∃ r, p.readers.get? eid = some r ∧ r.livelinessLostCb = true ∧ r.clock g = c

variable {p : Participant} {eid : EntityId} {g : GUID} {c : Reader.Clock}

theorem Watches.of_readersRel {q : Participant} {R : Reader → Reader → Prop}
    (h : p.Watches eid g c) (hrel : ReadersRel R p q)
    (hR : ∀ r r', R r r' → Reader.SameSources r r' ∧ r'.clock g = r.clock g) :
    q.Watches eid g c := by
  obtain ⟨r, hr, hcb, hclock⟩ := h
  obtain ⟨r', hr', hrr'⟩ := hrel.get? hr
  obtain ⟨hsame, hsameClock⟩ := hR r r' hrr'
  exact ⟨r', hr', (congrArg livelinessLostCb hsame.cfg).trans hcb, hsameClock.trans hclock⟩

open Reader

theorem Watches.poll (h : p.Watches eid g c) (order : List GUID) (now : Int) :
    (p.call (.checkLiveliness eid order now)).1.Watches eid g
        (if g ∈ order then c.poll now else c) ∧
      (.livelinessLost eid g ∈ (p.call (.checkLiveliness eid order now)).2 ↔
        g ∈ order ∧ c.expired now) := by
  obtain ⟨r, hr, hcb, rfl⟩ := h
  obtain ⟨hclock, hlost⟩ := r.clock_checkLeases now order g
  have hcall : p.call (.checkLiveliness eid order now) =
      ({ p with
          readers := p.readers.modify eid (fun r => (r.checkLeases now order).1)
            fun r => (sameMatch_checkLeases r now order).eid },
        (r.checkLeases now order).2.map (livelinessLost eid)) := by
    unfold call checkLiveliness
    dsimp only
    rw [hr]
    dsimp only
    rw [if_neg (by simp [hcb])]
  have hget : (p.readers.modify eid (fun r => (r.checkLeases now order).1)
      fun r => (sameMatch_checkLeases r now order).eid).get? eid =
        some (r.checkLeases now order).1 := get?_modify_self hr
  rw [hcall]
  refine ⟨⟨(r.checkLeases now order).1, hget, ?_, hclock⟩, ?_⟩
  · exact (congrArg livelinessLostCb (r.sameMatch_checkLeases now order).cfg).trans hcb
  · rw [← hlost]
    constructor
    · intro hmem
      obtain ⟨g', hg', heq⟩ := List.mem_map.1 hmem
      rw [← (livelinessLost.inj heq).2]
      exact hg'
    · exact fun hmem => List.mem_map.2 ⟨g, hmem, rfl⟩

theorem eid_newReader (req : Request) (now : Int) :
    (p.newReader req now).eid = entityIdForReader (p.entityCounter + 1) := by
  unfold newReader
  rw [congrArg eid (p.lateJoin_config req.qos _),
    congrArg eid (p.matchWriters_same _ now).1, congrArg eid (p.watchWriters_same _ now).1]
  rfl

theorem Watches.call (h : p.Watches eid g c) (hremote : g.guidPrefix ≠ p.guidPrefix) {cl : Call}
    (hkeeps : p.KeepsReader eid (.call cl))
    (hpoll : ∀ order now, cl ≠ .checkLiveliness eid order now) : (p.call cl).1.Watches eid g c := by
  have hchange := p.readers_call cl
  generalize (p.call cl).1 = q at hchange
  cases hchange with
  | kept hrefuses hrel =>
    exact h.of_readersRel hrel fun r r' hr => ⟨hr.toSameSources, hr.clock g hremote⟩
  | created req hreq haccept hreaders =>
    have hnew : entityIdForReader (p.entityCounter + 1) ≠ eid := by
      cases cl with
      | unsubscribe eid' => cases hreq
      | _ => exact hkeeps.resolve_left fun hrefuses => hrefuses req hreq haccept
    obtain ⟨r, hr, hcb, hclock⟩ := h
    refine ⟨r, ?_, hcb, hclock⟩
    rw [hreaders, get?_insert_ne]
    · exact hr
    · rw [eid_newReader]
      exact hnew.symm
  | removed eid' =>
    obtain ⟨r, hr, hcb, hclock⟩ := h
    refine ⟨r, ?_, hcb, hclock⟩
    show (p.readers.erase eid').get? eid = some r
    rw [get?_erase, if_neg fun heq => hkeeps heq.symm]
    exact hr
  | polled eid' order now hreaders =>
    obtain ⟨r, hr, hcb, hclock⟩ := h
    have hne : eid ≠ eid' := fun heq => hpoll order now (by rw [heq])
    refine ⟨r, ?_, hcb, hclock⟩
    rw [hreaders, get?_modify, hr, map_some]
    refine congrArg some (if_neg ?_)
    rw [(get?_eq_some.1 hr).2]
    exact hne

theorem Watches.of_readers {q : Participant} (h : p.Watches eid g c) (hq : q.readers = p.readers) :
    q.Watches eid g c := by
  unfold Watches
  rw [hq]
  exact h

theorem Watches.act (h : p.Watches eid g c) {i : Input} (hsilent : ∀ s, ¬ p.Hears g s (.act i)) :
    (p.act i).1.Watches eid g c := by
  by_cases hsource : i.action.source = g
  · cases hstuck : p.stuck with
    | true =>
      rw [act_of_stuck hstuck]
      exact h
    | false =>
      obtain ⟨a, src, now⟩ := i
      cases a with
      | data g' sn payload ts =>
        obtain rfl : g' = g := hsource
        rw [act_data hstuck]
        rcases handleOpened_cases p g' sn payload src ts now with
          ⟨-, heq⟩ | ⟨-, -, heq⟩ | ⟨hpass, hrunning, -⟩
        · rw [heq]
          exact h.of_readers (p.checkReplay_readers g' sn ts)
        · obtain ⟨r, hr, hcb, hclock⟩ := h
          rw [heq]
          refine ⟨(r.notify p.guidPrefix g' sn src).reader, ?_, ?_, ?_⟩
          · rw [get?_notifyReliableReaders, checkReplay_readers, checkReplay_config, hr]
            rfl
          · rw [congrArg livelinessLostCb (r.sameSources_notify _ _ _ _).cfg]
            exact hcb
          · exact (r.clock_notify _ _ _ _ g').trans hclock
        · exact absurd ⟨rfl, rfl, hstuck, hpass, hrunning⟩ (hsilent now)
      | heartbeat g' hb =>
        exact absurd ⟨hsource, rfl, hstuck⟩ (hsilent now)
      | ackNack g' an =>
        rw [act_ackNack hstuck]
        exact h.of_readers (p.readers_handleAckNack an src)
  · exact h.of_readersRel (p.heard_act i) fun r r' hr =>
      ⟨hr.toSameSources, hr.clock g fun heq => hsource heq.symm⟩

theorem clock_matchWriter (now : Int) (r : Reader) :
    (matchWriter info now r).clock g = if info.guid = g ∧ 0 < info.livelinessLease then
        ⟨some info.livelinessLease, some now, some false⟩ else r.clock g := by
  unfold matchWriter
  by_cases hlease : 0 < info.livelinessLease
  · rw [if_pos hlease]
    by_cases hguid : info.guid = g
    · rw [if_pos ⟨hguid, hlease⟩, ← hguid]
      exact clock_registerWriterLease _ _ _ _
    · rw [if_neg fun h => hguid h.1]
      exact clock_registerWriterLease_ne _ (fun h => hguid h.symm) _ _
  · rw [if_neg hlease, if_neg fun h => hlease h.2]
    rfl

theorem Watches.onRemoteWriter (h : p.Watches eid g c) {l : Locator}
    (hquiet : ¬ p.Announces eid g (.remoteWriter info l now)) :
    (p.onRemoteWriter info l now).Watches eid g c := by
  obtain ⟨r, hr, hcb, hclock⟩ := h
  have heid : r.eid = eid := (get?_eq_some.1 hr).2
  refine ⟨_, by rw [get?_onRemoteWriter, hr, map_some], ?_, ?_⟩
  · split_ifs
    · rw [congrArg livelinessLostCb (config_matchWriter info now r)]
      exact hcb
    · exact hcb
  · split_ifs with hmatched
    · rw [clock_matchWriter, if_neg fun hnew => hquiet ⟨hnew.1, heid ▸ hmatched, hnew.2⟩]
      exact hclock
    · exact hclock

theorem Watches.turn (h : p.Watches eid g c) (hremote : g.guidPrefix ≠ p.guidPrefix)
    (hkeeps : p.KeepsReader eid t) (hsilent : ∀ s, ¬ p.Hears g s t) (hquiet : ¬ p.Announces eid g t)
    (hpoll : ∀ order now, t ≠ .call (.checkLiveliness eid order now)) :
    (p.turn t).1.Watches eid g c := by
  cases t with
  | call cl => exact h.call hremote hkeeps fun order now hcl => hpoll order now (by rw [hcl])
  | act i => exact h.act hsilent
  | peer proxy now => exact h.of_readers (p.readers_discoverPeer proxy now)
  | remoteWriter info l now => exact h.onRemoteWriter hquiet
  | evict now => exact h.of_readers (p.readers_evictExpired now)
  | _ => exact h.of_readers rfl

theorem Watches.silence {fired : Bool} (h : p.Watches eid g ⟨some lease, some s, some fired⟩)
    (hremote : g.guidPrefix ≠ p.guidPrefix) (hkeeps : p.KeepsReader eid t)
    (hsilent : ∀ s, ¬ p.Hears g s t) (hquiet : ¬ p.Announces eid g t) : (p.turn t).1.Watches eid g
      ⟨some lease, some s, some (fired || decide (.livelinessLost eid g ∈ (p.turn t).2))⟩ := by
  by_cases hpoll : ∃ order now, t = .call (.checkLiveliness eid order now)
  · obtain ⟨order, now, rfl⟩ := hpoll
    obtain ⟨hwatches, hlost⟩ := h.poll order now
    have hlost' : decide (.livelinessLost eid g ∈ (p.turn (.call (.checkLiveliness eid order now))).2) =
        (decide (g ∈ order) && Reader.Clock.expired ⟨some lease, some s, some fired⟩ now) := by
      rw [Bool.eq_iff_iff, decide_eq_true_iff, Bool.and_eq_true, decide_eq_true_iff]
      exact hlost
    rw [hlost']
    by_cases hmem : g ∈ order
    · rw [if_pos hmem, Reader.Clock.poll_mk] at hwatches
      rw [decide_eq_true hmem, Bool.true_and]
      exact hwatches
    · rw [if_neg hmem] at hwatches
      rw [decide_eq_false hmem, Bool.false_and, Bool.or_false]
      exact hwatches
  · have hnone : .livelinessLost eid g ∉ (p.turn t).2 := fun h => hpoll (poll_of_livelinessLost h)
    rw [decide_eq_false hnone, Bool.or_false]
    exact h.turn hremote hkeeps hsilent hquiet fun order now ht => hpoll ⟨order, now, ht⟩

theorem watches_run (h : p.Watches eid g ⟨some lease, some s, some false⟩)
    (hremote : g.guidPrefix ≠ p.guidPrefix) {ts : List Turn}
    (hsilence : Run.Along (fun _ q t => q.KeepsReader eid t ∧ ∀ s, ¬ q.Hears g s t) turn [] p ts)
    (hquiet : Run.Along (fun _ q t => ¬ q.Announces eid g t) turn [] p ts) :
    (run turn p ts).1.Watches eid g
      ⟨some lease, some s, some (decide (.livelinessLost eid g ∈ (run turn p ts).2))⟩ := by
  refine (run_induction (J := fun (q : Participant) _ effs =>
    q.guidPrefix = p.guidPrefix ∧
      q.Watches eid g ⟨some lease, some s, some (decide (livelinessLost eid g ∈ effs))⟩) ?_
    ⟨rfl, by simpa using h⟩ (along_and hsilence hquiet)).2
  rintro q t past effs ⟨⟨hkeeps, hsilent⟩, hnot⟩ ⟨hown, hq⟩
  refine ⟨(congrArg guidPrefix (q.config_turn t)).trans hown, ?_⟩
  have hnext := hq.silence (hown ▸ hremote) hkeeps hsilent hnot
  simpa only [mem_append, Bool.decide_or] using hnext

/-! ## The beginning of a silence -/

/-- At `s` the reader last hears of the writer with this lease: it is matched, or DATA or a
HEARTBEAT comes. -/
inductive Opens (p : Participant) (eid : EntityId) (g : GUID) (lease s : Int) : Turn → Prop
  | heard {t : Turn} {r : Reader} (hr : p.readers.get? eid = some r) (hsource : g ∈ r.sources)
      (hlease : r.writerLease g = some lease) (hheard : p.Hears g s t) : Opens p eid g lease s t
  | announced {info : EndpointInfo} {l : Locator} {r : Reader} (hr : p.readers.get? eid = some r)
      (hnew : r.writerLease g = none) (hlease : info.livelinessLease = lease)
      (hann : p.Announces eid g (.remoteWriter info l s)) :
      Opens p eid g lease s (.remoteWriter info l s)
  | joined {cl : Call} {req : Request} {info : EndpointInfo}
      (hreq : request p.config cl = some req) (haccept : p.AcceptsReader req.topic)
      (heid : entityIdForReader (p.entityCounter + 1) = eid) (htime : cl.creationTime = s)
      (hinfo : info ∈ p.sedp.remoteWriters.items) (hguid : info.guid = g)
      (htopic : info.topicName = req.topic)
      (hpart : partitionsMatch info.partitions req.qos.partition = true)
      (hpos : 0 < info.livelinessLease) (hlease : info.livelinessLease = lease) :
      Opens p eid g lease s (.call cl)

theorem clock_lateJoin (qos : QoS) (r : Reader) : (p.lateJoin qos r).1.clock g = r.clock g := by
  unfold lateJoin
  split_ifs
  · cases p.keptFor r.topic with
    | none => rfl
    | some kept =>
      show (handOver kept r).1.clock g = _
      unfold handOver
      split_ifs <;> rfl
  · rfl

theorem clock_matched_ne {infos : List EndpointInfo} (h : ∀ x ∈ infos, x.guid ≠ g) (r : Reader) :
    (infos.foldl (fun r rw =>
        if rw.topicName = r.topic ∧ partitionsMatch rw.partitions r.partitions = true then
          matchWriter rw now r else r) r).clock g = r.clock g := by
  refine List.foldlRecOn _ _ (motive := fun x : Reader => x.clock g = r.clock g) rfl ?_
  intro x hx info hinfo
  split_ifs
  · rw [clock_matchWriter, if_neg fun hnew => h info hinfo hnew.1]
    exact hx
  · exact hx

theorem clock_matched {cfg : ReaderConfig} {infos : List EndpointInfo}
    (hnodup : (infos.map EndpointInfo.guid).Nodup) (hinfo : info ∈ infos)
    (htopic : info.topicName = cfg.topic) (hpart : partitionsMatch info.partitions cfg.partitions)
    (hpos : 0 < info.livelinessLease) {r : Reader} (hr : r.config = cfg) :
    (infos.foldl (fun r rw =>
        if rw.topicName = r.topic ∧ partitionsMatch rw.partitions r.partitions = true then
          matchWriter rw now r
        else r) r).clock info.guid = ⟨some info.livelinessLease, some now, some false⟩ := by
  induction infos generalizing r with
  | nil => cases hinfo
  | cons x infos ih =>
    rw [map_cons, nodup_cons] at hnodup
    rw [foldl_cons]
    rcases mem_cons.1 hinfo with rfl | hinfo
    · have hlater : ∀ y ∈ infos, y.guid ≠ info.guid := fun y hy heq =>
        hnodup.1 (List.mem_map.2 ⟨y, hy, heq⟩)
      have hfits : info.topicName = r.topic ∧ partitionsMatch info.partitions r.partitions := by
        rw [congrArg topic hr, congrArg partitions hr]
        exact ⟨htopic, hpart⟩
      rw [if_pos hfits, clock_matched_ne hlater, clock_matchWriter, if_pos ⟨rfl, hpos⟩]
    · split_ifs
      · exact ih hnodup.2 hinfo ((config_matchWriter x now r).trans hr)
      · exact ih hnodup.2 hinfo hr

theorem clock_newReader {req : Request} (hinfo : info ∈ p.sedp.remoteWriters.items)
    (htopic : info.topicName = req.topic)
    (hpart : partitionsMatch info.partitions req.qos.partition = true)
    (hpos : 0 < info.livelinessLease) :
    (p.newReader req now).clock info.guid = ⟨some info.livelinessLease, some now, some false⟩ := by
  let cfg := p.readerConfig req.topic req.qos req.cfg req.contentFilter
  unfold newReader matchWriters
  rw [clock_lateJoin]
  exact clock_matched p.sedp.remoteWriters.nodup hinfo htopic hpart hpos
    (p.watchWriters_same (Reader.new cfg) now).1

theorem clock_hears {r : Reader} (hr : p.readers.get? eid = some r) (hsource : g ∈ r.sources)
    (hlease : r.writerLease g = some lease) (hheard : p.Hears g s t) :
    ∃ r', (p.turn t).1.readers.get? eid = some r' ∧
      r'.clock g = ⟨some lease, some s, some false⟩ := by
  have htouch : (r.clock g).touch s = ⟨some lease, some s, some false⟩ := by
    unfold Reader.Clock.touch clock
    rw [hlease]
    rfl
  have haccept : r.acceptsSource p.guidPrefix g := acceptsSource_iff.2 (.inr hsource)
  cases t with
  | act i =>
    obtain ⟨a, src, now⟩ := i
    cases a with
    | data g' sn payload ts =>
      obtain ⟨rfl, rfl, hstuck, hpass, hrunning⟩ := hheard
      let told := ((p.checkReplay g' sn ts).1.notifyReliableReaders g' sn src).1
      let d := remoteDispatch g' sn payload ts now
      have hact : (p.act ⟨.data g' sn payload ts, src, now⟩).1 = (told.dispatchToReaders d).1 := by
        rw [act_data hstuck]
        rcases handleOpened_cases p g' sn payload src ts now with
          ⟨hno, -⟩ | ⟨-, hno, -⟩ | ⟨-, -, heq⟩
        · exact absurd (hno.symm.trans hpass) Bool.false_ne_true
        · exact absurd (hrunning.symm.trans hno) Bool.false_ne_true
        · rw [heq]
      have hown : told.guidPrefix = p.guidPrefix :=
        congrArg guidPrefix (p.checkReplay_config g' sn ts)
      refine ⟨(told.offer d (r.notify p.guidPrefix g' sn src).reader).1, ?_, ?_⟩
      · show (p.act _).1.readers.get? eid = _
        rw [hact, get?_dispatchToReaders, get?_notifyReliableReaders, checkReplay_readers,
          checkReplay_config, hr]
        rfl
      · have haccept' : (r.notify p.guidPrefix g' sn src).reader.acceptsSource told.guidPrefix g' =
            true := by
          rw [hown, (r.sameSources_notify _ _ _ _).acceptsSource]
          exact haccept
        rw [clock_offer, if_pos ⟨rfl, haccept'⟩]
        refine (clock_touchLiveliness _ g' now).trans ?_
        rw [clock_notify]
        exact htouch
    | heartbeat g' hb =>
      obtain ⟨rfl, rfl, hstuck⟩ := hheard
      refine ⟨(r.onHeartbeat p.guidPrefix g' hb src now).reader, ?_, ?_⟩
      · show (p.act _).1.readers.get? eid = _
        rw [act_heartbeat hstuck, handleHeartbeat, get?_react, hr]
        rfl
      · rw [clock_onHeartbeat, if_pos haccept, clock_touchLiveliness]
        exact htouch
    | ackNack g' an => exact hheard.elim
  | _ => exact hheard.elim

theorem Opens.watches (h : p.Opens eid g lease s t)
    (hcb : ∀ r, (p.turn t).1.readers.get? eid = some r → r.livelinessLostCb) :
    (p.turn t).1.Watches eid g ⟨some lease, some s, some false⟩ := by
  have hclock : ∃ r', (p.turn t).1.readers.get? eid = some r' ∧
      r'.clock g = ⟨some lease, some s, some false⟩ := by
    cases h with
    | heard hr hsource hlease hheard => exact clock_hears hr hsource hlease hheard
    | @announced info l r hr hnew hlease hann =>
      obtain ⟨hguid, hmatched, hpos⟩ := hann
      have heid : r.eid = eid := (get?_eq_some.1 hr).2
      refine ⟨matchWriter info s r, ?_, ?_⟩
      · show (p.onRemoteWriter info l s).readers.get? eid = _
        rw [get?_onRemoteWriter, hr, map_some, if_pos (heid ▸ hmatched)]
      · rw [clock_matchWriter, if_pos ⟨hguid, hpos⟩, hlease]
    | @joined cl req info hreq haccept heid htime hinfo hguid htopic hpart hpos hlease =>
      have hchange := p.readers_call cl
      have hcreated : (p.call cl).1.readers = p.readers.insert (p.newReader req s) := by
        generalize (p.call cl).1 = q at hchange ⊢
        cases hchange with
        | kept hrefuses hrel => exact absurd haccept (hrefuses req hreq)
        | created req' hreq' haccept' hreaders =>
          rw [hreaders, htime, some.inj (hreq.symm.trans hreq')]
        | _ => cases hreq
      refine ⟨p.newReader req s, ?_, ?_⟩
      · show (p.call cl).1.readers.get? eid = _
        rw [hcreated, ← heid, ← eid_newReader req s]
        exact get?_insert_self _ _
      · rw [← hguid, ← hlease]
        exact clock_newReader hinfo htopic hpart hpos
  obtain ⟨r', hr', hclock⟩ := hclock
  exact ⟨r', hr', hcb r' hr', hclock⟩

/-- Let a reader be matched with a remote writer, or hear of it, and then hear nothing of it for a
while. If the writer is not announced again in that time, a poll reports it as lost exactly if more
than its lease has passed and no poll of that time has reported it. -/
theorem liveliness_lost_iff (p : Participant) (last : Turn) (since : List Turn) (eid : EntityId)
    (g : GUID) (lease s : Int) (order : List GUID) (now : Int)
    (hremote : g.guidPrefix ≠ p.guidPrefix) (hlast : p.Opens eid g lease s last)
    (hcb : ∀ r, (p.turn last).1.readers.get? eid = some r → r.livelinessLostCb = true)
    (hsilence : Run.Along (fun _ q t => q.KeepsReader eid t ∧ ∀ s, ¬ q.Hears g s t) turn []
      (p.turn last).1 since)
    (hquiet : Run.Along (fun _ q t => ¬ q.Announces eid g t) turn [] (p.turn last).1 since)
    (horder : g ∈ order) :
    let run := run turn (p.turn last).1 since
    .livelinessLost eid g ∈ (run.1.turn (.call (.checkLiveliness eid order now))).2 ↔
      lease < now - s ∧ .livelinessLost eid g ∉ run.2 := by
  intro run
  have hown : (p.turn last).1.guidPrefix = p.guidPrefix :=
    congrArg guidPrefix (p.config_turn last)
  have hwatches := watches_run (hlast.watches hcb) (hown ▸ hremote) hsilence hquiet
  obtain ⟨-, hlost⟩ := hwatches.poll order now
  refine hlost.trans ?_
  rw [and_iff_right horder, Reader.Clock.expired_mk, Bool.and_eq_true, Bool.not_eq_true',
    decide_eq_false_iff_not, decide_eq_true_iff, and_comm]

theorem opens_announced (eid : EntityId) (info : EndpointInfo) (l : Locator)
    (now : Int) (hreader : (p.readers.get? eid).isSome)
    (hnew : ∀ r ∈ p.readers.get? eid, r.writerLease info.guid = none)
    (hmatched : eid ∈ p.matchedEIDs info) (hpos : 0 < info.livelinessLease) :
    p.Opens eid info.guid info.livelinessLease now (.remoteWriter info l now) := by
  obtain ⟨r, hr⟩ := isSome_iff_exists.1 hreader
  exact .announced hr (hnew r hr) rfl ⟨rfl, hmatched, hpos⟩

def leased : EndpointInfo :=
  { guid := ⟨copy 12 [2], copy 4 [1]⟩, topicName := str "a", isWriter := true,
    livelinessLease := second }

def watcher : Participant :=
  (run turn (Participant.new (.ofDefaults (copy 12 [1])) none)
    [.call (.newSubscriber (str "a") defaultTypeName defaultQoS
      SubscriberConfig.ofDefaults.withLivelinessLost 0)]).1

def announceLeased (now : Int) : Turn := .remoteWriter leased zeroLocator now

theorem watcher_opens :
    watcher.Opens (entityIdForReader 1) leased.guid second 0 (announceLeased 0) :=
  opens_announced (entityIdForReader 1) leased zeroLocator 0 (by decide +kernel)
    (by decide +kernel) (by decide +kernel) (by decide)

theorem liveliness_lost_once :
    let eid := entityIdForReader 1
    let poll := fun now => Turn.call (.checkLiveliness eid [leased.guid] now)
    let q := (watcher.turn (announceLeased 0)).1
    .livelinessLost eid leased.guid ∈ (q.turn (poll (2 * second))).2 ∧
      .livelinessLost eid leased.guid ∉
        ((q.turn (poll (2 * second))).1.turn (poll (3 * second))).2 := by
  intro eid poll q
  have hremote : leased.guid.guidPrefix ≠ watcher.guidPrefix := by decide +kernel
  have hcb : ∀ r, q.readers.get? eid = some r → r.livelinessLostCb = true :=
    (show ∀ r ∈ q.readers.get? eid, r.livelinessLostCb = true by decide +kernel)
  have hpolled : leased.guid ∈ [leased.guid] := mem_singleton_self _
  have hfirst := (liveliness_lost_iff watcher _ [] eid _ second 0 _ (2 * second) hremote
    watcher_opens hcb trivial trivial hpolled).2 ⟨by decide, by simp⟩
  have hkeeps : q.KeepsReader eid (poll (2 * second)) := .inl (refuses_of_request rfl)
  have hsecond := liveliness_lost_iff watcher _ [poll (2 * second)] eid _ second 0 _ (3 * second)
    hremote watcher_opens hcb ⟨⟨hkeeps, fun _ h => h⟩, trivial⟩ ⟨fun h => h, trivial⟩ hpolled
  refine ⟨hfirst, fun h => (hsecond.1 h).2 ?_⟩
  exact mem_append_left _ hfirst

/-- A writer is reported as lost, announced again, and without a sign of life reported once more. -/
theorem announced_writer_lost_twice :
    let eid := entityIdForReader 1
    let poll := fun now => Turn.call (.checkLiveliness eid [leased.guid] now)
    let q := (watcher.turn (announceLeased 0)).1
    let since := [poll (2 * second), announceLeased (3 * second)]
    watcher.Opens eid leased.guid second 0 (announceLeased 0) ∧
      .livelinessLost eid leased.guid ∈ (run turn q since).2 ∧
      .livelinessLost eid leased.guid ∈ ((run turn q since).1.turn (poll (5 * second))).2 := by
  intro eid poll q since
  exact ⟨watcher_opens, by decide +kernel, by decide +kernel⟩

end Participant

end GoDDS
