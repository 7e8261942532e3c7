import GoDDS.Rtps.Announced
import GoDDS.Rtps.Arrival
import GoDDS.Rtps.Delivery

/-!
# Matching with remote writers

Between participants topics are compared for equality.
-/

namespace GoDDS

open ByteCodec Go Security List Option ParticipantConfig Run FixedBytes
open Registry (get?_eq_some mem_insert)

namespace Participant

variable {p q : Participant} {g : GUID} {topic : Str}

/-- Every reader is listed for discovery as it is, and only endpoints of the participant are. -/
structure ListsReaders (p : Participant) : Prop where
  own : ∀ lr ∈ p.sedp.localReaders.items, lr.guid.guidPrefix = p.guidPrefix
  reader : ∀ r ∈ p.readers.items, r.endpoint p.guidPrefix ∈ p.announcedReaders

theorem ListsReaders.mem_matchedEIDs (h : p.ListsReaders) {r : Reader} (hr : r ∈ p.readers.items)
    (info : EndpointInfo) : r.eid ∈ p.matchedEIDs info ↔
      r.topic = info.topicName ∧ partitionsMatch r.partitions info.partitions := by
  obtain ⟨lr, hlr, hsame⟩ := List.mem_map.1 (h.reader r hr)
  obtain ⟨hguid, htopic, hpart⟩ := Endpoint.mk.inj hsame
  unfold matchedEIDs
  constructor
  · intro hmem
    obtain ⟨lr', hlr', heid⟩ := List.mem_map.1 hmem
    obtain ⟨hmem', hfits⟩ := mem_filter.1 hlr'
    have hguid' : lr'.guid = ⟨p.guidPrefix, r.eid⟩ := by
      rw [← h.own lr' hmem', ← heid]
    have hget := get?_eq_some.2 ⟨hlr, hguid⟩
    have hget' := get?_eq_some.2 ⟨hmem', hguid'⟩
    obtain rfl := Option.some.inj (hget.symm.trans hget')
    rw [Bool.and_eq_true, decide_eq_true_eq, htopic, hpart] at hfits
    exact hfits
  · rintro ⟨htopic', hpart'⟩
    refine List.mem_map.2 ⟨lr, mem_filter.2 ⟨hlr, ?_⟩, congrArg GUID.entity hguid⟩
    rw [Bool.and_eq_true, decide_eq_true_eq, htopic, hpart]
    exact ⟨htopic', hpart'⟩

/-! ## Matching over whole lives -/

/-- The readers are matched with the listed remote writers, and with `g`, announced only for
`topic`. -/
structure MatchesAs (g : GUID) (topic : Str) (p : Participant) : Prop extends ListsReaders p where
  listed : ∀ info ∈ p.sedp.remoteWriters.items, info.guid = g → info.topicName = topic
  sound : ∀ r ∈ p.readers.items, g ∈ r.sources → r.topic = topic
  complete : ∀ info ∈ p.sedp.remoteWriters.items, ∀ r ∈ p.readers.items,
    info.topicName = r.topic → partitionsMatch info.partitions r.partitions = true →
      info.guid ∈ r.sources

theorem MatchesAs.of_same (h : p.MatchesAs g topic)
    (hreaders : ∀ r' ∈ q.readers.items, ∃ r ∈ p.readers.items, Reader.SameSources r r')
    (hown : q.guidPrefix = p.guidPrefix) (hlocal : q.sedp.localReaders = p.sedp.localReaders)
    (hremote : ∀ info ∈ q.sedp.remoteWriters.items, info ∈ p.sedp.remoteWriters.items) :
    q.MatchesAs g topic := by
  constructor
  · constructor
    · rw [hlocal, hown]
      exact h.own
    · intro r' hr'
      obtain ⟨r, hr, hsame⟩ := hreaders r' hr'
      unfold announcedReaders
      rw [hlocal, hown, hsame.cfg]
      exact h.reader r hr
  · intro info hinfo
    exact h.listed info (hremote info hinfo)
  · intro r' hr' hg
    obtain ⟨r, hr, hsame⟩ := hreaders r' hr'
    rw [hsame.sources] at hg
    rw [hsame.cfg]
    exact h.sound r hr hg
  · intro info hinfo r' hr' htopic hpart
    obtain ⟨r, hr, hsame⟩ := hreaders r' hr'
    rw [hsame.cfg] at htopic hpart
    rw [hsame.sources]
    exact h.complete info (hremote info hinfo) r hr htopic hpart

theorem config_newReader (p : Participant) (req : Request) (now : Int) :
    (p.newReader req now).config =
      p.readerConfig req.topic req.qos req.cfg req.contentFilter :=
  (p.lateJoin_config _ _).trans
    ((p.matchWriters_same _ now).1.trans (p.watchWriters_same _ now).1)

theorem matchesAs_newSubscriberLocked (h : p.MatchesAs g topic) (pattern typeName : Str) (qos : QoS)
    (cfg : SubscriberConfig) (cf : Option ContentFilterSpec) (now : Int) :
    (p.newSubscriberLocked pattern typeName qos cfg cf now).participant.MatchesAs g topic := by
  let req : Request := ⟨pattern, qos, cfg, cf⟩
  let r := p.newReader req now
  have hcfg : r.config = p.readerConfig pattern qos cfg cf := p.config_newReader req now
  have hlocal : ∃ info, info.endpoint = r.endpoint p.guidPrefix ∧
      (p.newSubscriberLocked pattern typeName qos cfg cf now).participant.sedp.localReaders =
        p.sedp.localReaders.insert info := by
    rw [hcfg]
    exact ⟨_, rfl, rfl⟩
  obtain ⟨info, hinfo, hlocal⟩ := hlocal
  have hguid : info.guid = ⟨p.guidPrefix, r.eid⟩ := congrArg Endpoint.guid hinfo
  constructor
  · constructor
    · intro lr hlr
      rw [hlocal] at hlr
      rcases mem_insert.1 hlr with rfl | ⟨hold, -⟩
      · rw [hguid]
        rfl
      · exact h.own lr hold
    · intro r' hr'
      unfold announcedReaders
      rw [hlocal, mem_map_insert]
      rcases mem_insert.1 hr' with rfl | ⟨hold, hne⟩
      · exact .inl hinfo.symm
      · refine .inr ⟨h.reader r' hold, fun heq => hne ?_⟩
        rw [hguid] at heq
        exact congrArg GUID.entity heq
  · exact h.listed
  · intro r' hr' hg
    rcases mem_insert.1 hr' with rfl | ⟨hold, -⟩
    · have hmem : g ∈ (p.newReader req now).sources := hg
      obtain ⟨rw', hrw, htopic, -, hrwg⟩ := mem_sources_newReader.1 hmem
      have hown : r.topic = pattern := congrArg ReaderConfig.topic hcfg
      exact hown.trans (htopic.symm.trans (h.listed rw' hrw hrwg))
    · exact h.sound r' hold hg
  · intro rw' hrw r' hr' htopic hpart
    rcases mem_insert.1 hr' with rfl | ⟨hold, -⟩
    · change rw'.topicName = r.topic at htopic
      change partitionsMatch rw'.partitions r.partitions = true at hpart
      rw [hcfg] at htopic hpart
      have hmem : rw'.guid ∈ (p.newReader req now).sources :=
        mem_sources_newReader.2 ⟨rw', hrw, htopic, hpart, rfl⟩
      exact hmem
    · exact h.complete rw' hrw r' hold htopic hpart

theorem matchesAs_addWriter (h : p.MatchesAs g topic) (w : WriterConfig) (typeName : Str)
    (now : Int) : (p.addWriter w typeName now).1.MatchesAs g topic := by
  have hrel := p.readersRel_addWriter w typeName now
  obtain ⟨_, -, -, hlocal, hown⟩ := p.sedp_addWriter w typeName now
  have hremote := p.sameRemote_addWriter w typeName now
  refine h.of_same (fun r' hr' => (hrel.mono fun _ _ hr => hr.toSameSources).mem hr') hown hlocal ?_
  rw [hremote.remoteWriters]
  exact fun _ hinfo => hinfo

theorem matchesAs_call_of_not_creates (h : p.MatchesAs g topic) {c : Call}
    (hnew : c.creates = false) : (p.call c).1.MatchesAs g topic := by
  have hcfg : (p.call c).1.guidPrefix = p.guidPrefix :=
    congrArg guidPrefix (p.config_serve c)
  have hsedp := p.sedp_call hnew
  have hchange := p.readers_call c
  refine h.of_same ?_ hcfg (congrArg _ hsedp) ?_
  · generalize (p.call c).1 = q at hchange
    cases hchange with
    | kept _ hrel => exact fun r' hr' => (hrel.mono fun _ _ hr => hr.toSameSources).mem hr'
    | created req hreq => cases (request_of_not_creates hnew).symm.trans hreq
    | removed eid => exact fun r' hr' => ⟨r', mem_of_mem_filter hr', .refl r'⟩
    | polled eid order now hreaders =>
      have hrel : ReadersRel Reader.SameSources p q := by
        refine readersRel_of_map (fun _ _ hr => hr.eid) (fun r => ?_)
          (congrArg Registry.items hreaders)
        split_ifs
        · exact (Reader.sameMatch_checkLeases r now order).sameSources
        · exact .refl r
      exact fun r' hr' => hrel.mem hr'
  · rw [hsedp]
    exact fun _ hinfo => hinfo

theorem matchesAs_call (h : p.MatchesAs g topic) (c : Call) : (p.call c).1.MatchesAs g topic := by
  cases hc : c.creates with
  | false => exact matchesAs_call_of_not_creates h hc
  | true =>
    obtain ⟨q, effs, hcall, hcalled⟩ := p.call_cases c
    rw [hcall]
    cases hcalled with
    | refused => exact h
    | writerAdded => exact matchesAs_addWriter h _ _ _
    | readerAdded => exact matchesAs_newSubscriberLocked h _ _ _ _ _ _
    | _ => cases hc

theorem matchesAs_onRemoteWriter (h : p.MatchesAs g topic) {info : EndpointInfo}
    (hinfo : info.guid = g → info.topicName = topic) (l : Locator) (now : Int) :
    (p.onRemoteWriter info l now).MatchesAs g topic := by
  have hreader : ∀ r' ∈ (p.onRemoteWriter info l now).readers.items, ∃ r ∈ p.readers.items,
      r'.config = r.config ∧
        r'.sources = if r.eid ∈ p.matchedEIDs info then insert info.guid r.sources else r.sources := by
    intro r' hr'
    obtain ⟨r, hr, rfl⟩ := List.mem_map.1 hr'
    refine ⟨r, hr, ?_⟩
    split_ifs
    · exact ⟨config_matchWriter info now r, sources_matchWriter info now r⟩
    · exact ⟨rfl, rfl⟩
  constructor
  · constructor
    · exact h.own
    · intro r' hr'
      obtain ⟨r, hr, hcfg, -⟩ := hreader r' hr'
      rw [hcfg]
      exact h.reader r hr
  · intro info' hinfo' hguid
    rcases mem_insert.1 hinfo' with rfl | ⟨hold, -⟩
    · exact hinfo hguid
    · exact h.listed info' hold hguid
  · intro r' hr' hg
    obtain ⟨r, hr, hcfg, hsources⟩ := hreader r' hr'
    rw [hcfg]
    rw [hsources] at hg
    split_ifs at hg with hmatched
    · rcases Finset.mem_insert.1 hg with rfl | hg
      · exact ((h.mem_matchedEIDs hr info).1 hmatched).1.trans (hinfo rfl)
      · exact h.sound r hr hg
    · exact h.sound r hr hg
  · intro info' hinfo' r' hr' htopic hpart
    obtain ⟨r, hr, hcfg, hsources⟩ := hreader r' hr'
    rw [hcfg] at htopic hpart
    rw [hsources]
    rcases mem_insert.1 hinfo' with rfl | ⟨hold, -⟩
    · rw [partitionsMatch_comm] at hpart
      rw [if_pos ((h.mem_matchedEIDs hr info').2 ⟨htopic.symm, hpart⟩)]
      exact Finset.mem_insert_self _ _
    · have hmem := h.complete info' hold r hr htopic hpart
      split_ifs
      · exact Finset.mem_insert_of_mem hmem
      · exact hmem

def AnnouncesAs (g : GUID) (topic : Str) : Turn → Prop
  | .remoteWriter info _ _ => info.guid = g → info.topicName = topic
  | _ => True

instance (g : GUID) (topic : Str) (t : Turn) : Decidable (AnnouncesAs g topic t) := by
  unfold AnnouncesAs
  split <;> infer_instance

theorem matchesAs_turn (h : p.MatchesAs g topic) {t : Turn} (ht : AnnouncesAs g topic t) :
    (p.turn t).1.MatchesAs g topic := by
  have hsame : ∀ q : Participant, q.readers = p.readers → q.guidPrefix = p.guidPrefix →
      q.sedp = p.sedp → q.MatchesAs g topic := by
    intro q hreaders hown hsedp
    refine h.of_same ?_ hown (congrArg _ hsedp) ?_
    · rw [hreaders]
      exact fun r hr => ⟨r, hr, .refl r⟩
    · rw [hsedp]
      exact fun _ hinfo => hinfo
  cases t with
  | call c => exact matchesAs_call h c
  | act i =>
    have hrel := (p.heard_act i).mono fun _ _ hr => hr.toSameSources
    have hsedp := (p.sameTables_act i).sedp
    refine h.of_same (fun r' hr' => hrel.mem hr') ?_ (congrArg _ hsedp) ?_
    · exact congrArg guidPrefix (p.config_act i)
    · rw [show (p.turn (.act i)).1.sedp = p.sedp from hsedp]
      exact fun _ hinfo => hinfo
  | peer proxy now =>
    exact hsame _ (p.readers_discoverPeer proxy now)
      (congrArg guidPrefix (p.config_turn (.peer proxy now)))
      (p.sameTables_discoverPeer proxy now).sedp
  | remoteWriter info l now => exact matchesAs_onRemoteWriter h ht l now
  | remoteReader info l =>
    exact h.of_same (fun r hr => ⟨r, hr, .refl r⟩) rfl rfl fun _ hinfo => hinfo
  | announce => exact hsame _ rfl rfl rfl
  | evict now =>
    refine evictExpired_induction (J := MatchesAs g topic) (hsame _ rfl rfl rfl) ?_
    intro q gone hq
    exact hq.of_same (fun r hr => ⟨r, hr, .refl r⟩) rfl rfl fun _ => mem_of_mem_filter

theorem matchesAs_run (cfg : ParticipantConfig) (antiReplay : Option ReplayGuard) {ts : List Turn}
    (hts : ∀ t ∈ ts, AnnouncesAs g topic t) :
    (run turn (new cfg antiReplay) ts).1.MatchesAs g topic := by
  have hnew : (new cfg antiReplay).MatchesAs g topic := by
    refine ⟨⟨?_, ?_⟩, ?_, ?_, ?_⟩
    all_goals
      intro x hx
      cases hx
  refine run_induction (J := fun q _ _ => MatchesAs g topic q)
    (C := fun _ _ t => AnnouncesAs g topic t) (fun q t _ _ ht hq => matchesAs_turn hq ht) hnew ?_
  exact along_of_mem hts _ _

def OpenAddress (loc : Locator) (lms : List ReaderLocator) : Prop :=
  ∃ lm ∈ lms, lm.loc = loc ∧ lm.contentFilters = []

theorem openAddress_matchedReaderLocators {partitions : List Str} {info : EndpointInfo}
    {loc : Locator} (h : (info, loc) ∈ p.matchedReaders topic partitions)
    (hcf : info.contentFilter = none) :
    OpenAddress loc (p.matchedReaderLocators topic partitions) := by
  have hsum := p.summary_matchedReaderLocators topic partitions
  obtain ⟨rl, hrl, hloc⟩ := hsum.complete _ h
  refine ⟨rl, hrl, hloc, (hsum.unfiltered rl hrl).2 ⟨info, ?_, hcf⟩⟩
  rw [hloc]
  exact h

theorem messagesTo_of_openAddress {w : Writer} {dst : UDPAddr} {loc : Locator}
    (h : OpenAddress loc (p.matchedReaderLocators w.topic w.qos.partition))
    (hdst : loc.udpAddr = some dst) (own : GuidPrefix) (payload msg : Bytes) :
    ∃ rest, messagesTo own dst (p.sendSample w payload [msg]) = msg :: rest := by
  obtain ⟨lm, hlm, rfl, hcf⟩ := h
  have hmem : msg ∈ messagesTo own dst (p.sendSample w payload [msg]) := by
    unfold sendSample
    dsimp only
    split_ifs
    · rw [messagesTo_multicast]
      exact mem_singleton_self msg
    · have hpass : lm.passes payload := by
        unfold ReaderLocator.passes
        rw [hcf]
        rfl
      refine @bytes_mem_messagesTo _ own dst lm.guidPrefix (.message msg) (mem_flatMap.2 ⟨lm, hlm, ?_⟩)
      rw [if_neg (by simp [hpass]), hdst]
      exact mem_singleton_self _
  cases hsent : messagesTo own dst (p.sendSample w payload [msg]) with
  | nil =>
    rw [hsent] at hmem
    cases hmem
  | cons first rest =>
    have hfirst : first ∈ messagesTo own dst (p.sendSample w payload [msg]) := by
      rw [hsent]
      exact mem_cons_self
    obtain rfl : first = msg := by
      rcases mem_messagesTo hfirst with ⟨peer, out, he, rfl⟩ | ⟨group, he⟩
      · obtain ⟨m, hm, ⟨dst', heq⟩ | ⟨dst', peer', heq⟩⟩ := mem_sendSample he
        · cases heq
        · cases heq
          exact mem_singleton.1 hm
      · obtain ⟨m, hm, ⟨dst', heq⟩ | ⟨dst', peer', heq⟩⟩ := mem_sendSample he
        · cases heq
          exact mem_singleton.1 hm
        · cases heq
    exact ⟨rest, rfl⟩

/-! ## A writer and a reader that have heard of each other -/

/-- The tables list the writer of `s` and the reader of `q` as they are, with the reader's
address. -/
@[mk_iff]
structure Exchanged (s q : Participant) (w : Writer) (r : Reader) (dst : UDPAddr) : Prop where
  writer : ∃ info ∈ q.sedp.remoteWriters.items, info.endpoint = w.endpoint s.guidPrefix
  reader : ∃ info ∈ s.sedp.remoteReaders.items, info.endpoint = r.endpoint q.guidPrefix ∧
    info.contentFilter = none ∧
    ∃ loc ∈ s.sedp.remoteReaderLocs info.guid, loc.udpAddr = some dst

instance (s q : Participant) (w : Writer) (r : Reader) (dst : UDPAddr) :
    Decidable (s.Exchanged q w r dst) :=
  decidable_of_iff _ (s.exchanged_iff q w r dst).symm

/-- Nothing but the matching keeps the sample, received in `pkt`, from the reader. -/
structure Unhindered (q : Participant) (r : Reader) (g : GUID) (sn : UInt64) (payload : Bytes)
    (written : Int) (pkt : Packet) : Prop where
  brings : q.Brings (.act ⟨.data g sn payload (wireTime pkt.now written), pkt.src, pkt.now⟩)
    (remoteDispatch g sn payload (wireTime pkt.now written) pkt.now)
  willing : r.Willing (remoteDispatch g sn payload (wireTime pkt.now written) pkt.now)
  allowed : q.ownershipAllows r.topic g = true

theorem not_arrives_receive {eid : EntityId} (hremote : g.guidPrefix ≠ q.guidPrefix)
    (hsources : ∀ r ∈ q.readers.get? eid, g ∉ r.sources) (pkts : List Packet) :
    ¬ Arrives (q.receive pkts).2 eid g := by
  rw [receive_eq_run]
  rintro ⟨origin, sample, hmem⟩
  refine run_outputs (P := fun e => e ≠ .dispatch eid g origin sample true)
    (I := fun p : Participant => p.guidPrefix = q.guidPrefix ∧
      ∀ r ∈ p.readers.get? eid, g ∉ r.sources) ?_ ?_ ⟨rfl, hsources⟩ _ _ hmem rfl
  · rintro p i ⟨hown, hp⟩
    refine ⟨(congrArg guidPrefix (p.config_act i)).trans hown, ?_⟩
    intro r' hr'
    have hrel := p.heard_act i eid
    rw [mem_def.1 hr'] at hrel
    cases hr : p.readers.get? eid with
    | none =>
      rw [hr] at hrel
      cases hrel
    | some r =>
      rw [hr] at hrel
      cases hrel with
      | some hheard =>
        rw [hheard.sources]
        exact hp r hr
  · rintro p i ⟨hown, hp⟩ e he rfl
    have hfilter : .dispatch eid g origin sample true ∈
        (p.act i).2.filter (Effect.isDispatchTo eid) :=
      mem_filter.2 ⟨he, decide_eq_true rfl⟩
    rcases p.act_dispatches i eid with
      hnone | ⟨r, r', g', sn, payload, ts, queued, -, hr, -, haccept, -, -, hone⟩
    · rw [hnone] at hfilter
      cases hfilter
    · rw [hone] at hfilter
      obtain ⟨-, rfl, -⟩ := Effect.dispatch.inj (mem_singleton.1 hfilter)
      rcases Reader.acceptsSource_iff.1 haccept with hlocal | hlisted
      · exact hremote (hlocal.trans hown)
      · exact hp r hr hlisted

/-- Let a reader and a writer of another participant have heard of each other, in partitions that
match, with nothing else in the way of a sample. That the sample arrives exactly if the reader's
pattern matches the writer's topic is true exactly if the pattern, when it matches, is the topic
itself. -/
theorem remote_wildcard_iff (cfg : ParticipantConfig) (antiReplay : Option ReplayGuard)
    (ts : List Turn) (s : Participant) (w : Writer) (r : Reader) (dst : UDPAddr)
    (payload rnd : Bytes) (now : Int) (pkts : List Packet)
    (hne : s.guidPrefix ≠ cfg.guidPrefix) (hsec : s.security = none) (hsec' : cfg.security = none)
    (htopic : ∀ t ∈ ts, AnnouncesAs ⟨s.guidPrefix, w.eid⟩ w.topic t)
    (hr : (Run.run turn (Participant.new cfg antiReplay) ts).1.readers.get? r.eid = some r)
    (hmet : s.Exchanged (Run.run turn (Participant.new cfg antiReplay) ts).1 w r dst)
    (hpart : partitionsMatch w.qos.partition r.partitions = true)
    (hok : (s.write w payload rnd now).error = none) (hfits : w.Fits payload)
    (hpkts : pkts.map Packet.data = messagesTo s.guidPrefix dst (s.write w payload rnd now).effects)
    (hclear : ∀ pkt ∈ pkts.head?, (Run.run turn (Participant.new cfg antiReplay) ts).1.Unhindered r
      ⟨s.guidPrefix, w.eid⟩ (w.seq + 1) payload now pkt) :
    (Arrives ((Run.run turn (Participant.new cfg antiReplay) ts).1.receive pkts).2 r.eid
        ⟨s.guidPrefix, w.eid⟩ ↔ topicMatches r.topic w.topic = true) ↔
      (topicMatches r.topic w.topic = true → r.topic = w.topic) := by
  have hmatch := matchesAs_run cfg antiReplay htopic
  have hcfg := config_run_turn (new cfg antiReplay) ts
  generalize (run turn (new cfg antiReplay) ts).1 = q at *
  have hown : s.guidPrefix ≠ q.guidPrefix := by
    rw [hcfg]
    exact hne
  have hrmem := (get?_eq_some.1 hr).1
  suffices harrives : Arrives (q.receive pkts).2 r.eid ⟨s.guidPrefix, w.eid⟩ ↔ r.topic = w.topic by
    rw [harrives]
    constructor
    · exact fun h hfit => h.2 hfit
    · exact fun h => ⟨fun heq => heq ▸ topicMatches_self _, h⟩
  constructor
  · intro harrives
    by_contra hdiff
    refine not_arrives_receive hown (fun r' hr' hg => hdiff ?_) pkts harrives
    obtain rfl := Option.some.inj (hr.symm.trans hr')
    exact hmatch.sound r hrmem hg
  · intro heq
    obtain ⟨infoW, hinfoW, hsame⟩ := hmet.writer
    obtain ⟨hguidW, htopicW, hpartW⟩ := Endpoint.mk.inj hsame
    have hsource : ⟨s.guidPrefix, w.eid⟩ ∈ r.sources := by
      rw [← hguidW]
      refine hmatch.complete infoW hinfoW r hrmem (htopicW.trans heq.symm) ?_
      rw [hpartW]
      exact hpart
    obtain ⟨infoR, hinfoR, hsameR, hcf, loc, hloc, hdst⟩ := hmet.reader
    obtain ⟨-, htopicR, hpartR⟩ := Endpoint.mk.inj hsameR
    have hkind : loc.kind ≠ locatorKindInvalid := by
      intro hkind
      rw [Locator.udpAddr, hkind] at hdst
      cases hdst
    have haddr : OpenAddress loc (s.matchedReaderLocators w.topic w.qos.partition) := by
      refine openAddress_matchedReaderLocators (mem_matchedReaders.2
        ⟨hinfoR, htopicR.trans heq, ?_, hloc, hkind⟩) hcf
      rw [hpartR]
      exact hpart
    obtain ⟨msgs, beats, hmsgs, hsent, -⟩ := messagesTo_write hsec hok dst
    have hone := Writer.messages_of_fits (w := { w with seq := w.seq + 1 }) hfits s.guidPrefix
      (u64ToSN (w.seq + 1)) now
    obtain rfl := Option.some.inj (hone.symm.trans hmsgs)
    obtain ⟨rest, hrest⟩ := messagesTo_of_openAddress haddr hdst s.guidPrefix payload
      (dataMessage s.guidPrefix w.eid (u64ToSN (w.seq + 1)) now payload)
    rw [hsent, hrest, cons_append] at hpkts
    obtain ⟨⟨data, src, clock⟩, later, rfl, rfl, -⟩ := map_eq_cons_iff.1 hpkts
    have hopen : openPayload q.config payload = some payload := by
      have hsecq : q.security = none := by
        rw [hcfg]
        exact hsec'
      rw [openPayload, hsecq]
    obtain ⟨hbrings, hwilling, hallowed⟩ := hclear _ rfl
    have hgot := (arrives_turn_iff hbrings hr hwilling
      ⟨rfl, Reader.acceptsSource_iff.2 (.inr hsource), fun hlocal => absurd hlocal hown⟩).2 hallowed
    obtain ⟨origin, sample, hmem⟩ := hgot
    refine ⟨origin, sample, ?_⟩
    rw [receive_eq_run, flatMap_cons, inputsOf_data hown _ _ _ hfits.2, hopen, map_some,
      toList_some, singleton_append, run_cons, snToU64_u64ToSN]
    exact mem_append_left _ hmem

/-- What the discovery packets of one participant, sent from `src` to `dst`, make another one do. -/
def hearing (cfg : ParticipantConfig) (event : Packet → NodeEvent) (sender : GuidPrefix)
    (src dst : UDPAddr) (effs : List Effect) : List Turn :=
  (messagesTo sender dst effs).flatMap fun msg => turnsOf cfg (.node (event ⟨msg, some src, 0⟩))

/-- Two participants discover each other: each hears the other's announcement, then its
endpoints'. -/
def meeting (p q : Participant) (pAddr qAddr : UDPAddr) : List Turn × List Turn :=
  let pHears := hearing p.config .spdp q.guidPrefix qAddr pAddr q.sendAnnouncement.2
  let qHears := hearing q.config .spdp p.guidPrefix pAddr qAddr p.sendAnnouncement.2
  (pHears ++ hearing p.config .sedp q.guidPrefix qAddr pAddr (Run.run turn q qHears).2,
    qHears ++ hearing q.config .sedp p.guidPrefix pAddr qAddr (Run.run turn p pHears).2)

theorem remote_topic_arrives :
    let p := (run turn (new (.ofDefaults (copy 12 [1])) none)
      [.call (.newPublisher (str "a/b") defaultTypeName defaultQoS 0)]).1
    let created : List Turn :=
      [.call (.newSubscriber (str "a/b") defaultTypeName defaultQoS .ofDefaults 0)]
    let cfg := ofDefaults (copy 12 [2])
    let met := meeting p (run turn (new cfg none) created).1 ⟨[10, 0, 0, 1], 7410⟩
      ⟨[10, 0, 0, 2], 7410⟩
    let s := (run turn p met.1).1
    let q := (run turn (new cfg none) (created ++ met.2)).1
    let dst : UDPAddr := ⟨[10, 0, 0, 2], 7411⟩
    let pkts := fun w => (messagesTo s.guidPrefix dst (s.write w [7] [] 0).effects).map fun msg =>
      Packet.mk msg none 0
    ∃ w ∈ s.writers.get? (entityIdForWriter 1), ∃ r ∈ q.readers.get? (entityIdForReader 1),
      Arrives (q.receive (pkts w)).2 r.eid ⟨s.guidPrefix, w.eid⟩ := by
  intro p created cfg met s q dst pkts
  have hfacts : ∃ w ∈ s.writers.get? (entityIdForWriter 1),
      ∃ r ∈ q.readers.get? (entityIdForReader 1),
      (∀ t ∈ created ++ met.2, AnnouncesAs ⟨s.guidPrefix, w.eid⟩ w.topic t) ∧
        s.Exchanged q w r dst ∧ partitionsMatch w.qos.partition r.partitions = true ∧
        (s.write w [7] [] 0).error = none ∧ w.Fits [7] ∧ r.topic = w.topic ∧
        ∀ pkt ∈ (pkts w).head?,
          let g : GUID := ⟨s.guidPrefix, w.eid⟩
          let ts := wireTime pkt.now 0
          (q.checkReplay g (w.seq + 1) ts).2.2 = true ∧
            (q.act ⟨.data g (w.seq + 1) [7] ts, pkt.src, pkt.now⟩).1.stuck = false ∧
            r.Willing (remoteDispatch g (w.seq + 1) [7] ts pkt.now) ∧
            q.ownershipAllows r.topic g = true := by decide +kernel
  obtain ⟨w, hw, r, hr, htopic, hmet, hpart, hok, hfits, hsame, hclear⟩ := hfacts
  have heid : r.eid = entityIdForReader 1 := (get?_eq_some.1 hr).2
  refine ⟨w, hw, r, hr, ?_⟩
  rw [← heid] at hr
  refine ((remote_wildcard_iff cfg none (created ++ met.2) s w r dst [7] [] 0 _ (by decide +kernel)
    (by decide +kernel) rfl htopic hr hmet hpart hok hfits ?_ ?_).2 fun _ => hsame).2 ?_
  · rw [List.map_map]
    exact List.map_id _
  · intro pkt hpkt
    obtain ⟨hpass, hreturns, hwilling, hallowed⟩ := hclear pkt hpkt
    exact ⟨.received (by decide +kernel) hpass hreturns, hwilling, hallowed⟩
  · rw [hsame]
    exact topicMatches_self _

/-- A writer of `a/b` and a reader of `a/+` discover each other, and the reader gets nothing. -/
theorem remote_pattern_silent :
    let p := (run turn (new (.ofDefaults (copy 12 [1])) none)
      [.call (.newPublisher (str "a/b") defaultTypeName defaultQoS 0)]).1
    let q := (run turn (new (.ofDefaults (copy 12 [2])) none)
      [.call (.newSubscriber (str "a/+") defaultTypeName defaultQoS .ofDefaults 0)]).1
    let met := meeting p q ⟨[10, 0, 0, 1], 7410⟩ ⟨[10, 0, 0, 2], 7410⟩
    let s := (run turn p met.1).1
    let t := (run turn q met.2).1
    let dst : UDPAddr := ⟨[10, 0, 0, 2], 7411⟩
    ∃ w ∈ s.writers.get? (entityIdForWriter 1), ∃ r ∈ t.readers.get? (entityIdForReader 1),
      s.Exchanged t w r dst ∧ partitionsMatch w.qos.partition r.partitions = true ∧
        (s.write w [7] [] 0).error = none ∧ w.Fits [7] ∧ topicMatches r.topic w.topic = true ∧
        (s.write w [7] [] 0).effects = [] := by decide +kernel

end Participant

end GoDDS
