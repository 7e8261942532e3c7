import GoDDS.Rtps.Spdp

/-!
# Authenticated discovery

The tag is checked against the prefix in the header, but the tables are filled with the identifier
in the payload, and nothing compares the two (`stranger_stored`).
-/

namespace GoDDS

open ByteCodec Go List Option ParticipantConfig FixedBytes Run Registry

/-! ## Events -/

inductive Route where
  | spdp
  | sedp
  | data

def routeOf (s : Submessage) : Option Route :=
  if s.id = submsgDATA then
    (parseDataSubmessage (flagEndianness ||| flagData) s.body).map fun ds =>
      if ds.writerEntityId = entityIdSPDPWriter then .spdp
      else if ds.writerEntityId = entityIdSEDPPubWriter ∨
          ds.writerEntityId = entityIdSEDPSubWriter then .sedp
      else .data
  else if s.id = submsgHEARTBEAT ∨ s.id = submsgACKNACK then some .data
  else none

variable {a : Announcement} {sender : GuidPrefix} {pkt : Packet}

namespace Participant

inductive NodeEvent where
  | spdp (pkt : Packet)
  | sedp (pkt : Packet)
  | stream (pkt : Packet)
  | announce
  | evict (now : Int)
  | user (ev : Event)

def NodeEvent.packet? : NodeEvent → Option Packet
  | .spdp pkt => some pkt
  | .sedp pkt => some pkt
  | .stream pkt => some pkt
  | _ => none

def received (evs : List NodeEvent) : List Packet := evs.filterMap NodeEvent.packet?

def dispatchTCPPacket (p : Participant) (pkt : Packet) : Participant × List Effect :=
  match submessagesOf p.guidPrefix pkt.data with
  | none => (p, [])
  | some (_, subs) =>
    match subs.findSome? routeOf with
    | none => (p, [])
    | some .spdp => p.spdpHandlePacket pkt
    | some .sedp => p.sedpHandlePacket pkt
    | some .data => p.handleDataPacket pkt

def node (p : Participant) : NodeEvent → Participant × List Effect
  | .spdp pkt => p.spdpHandlePacket pkt
  | .sedp pkt => p.sedpHandlePacket pkt
  | .stream pkt => p.dispatchTCPPacket pkt
  | .announce => p.sendAnnouncement
  | .evict now => p.evictExpired now
  | .user ev => p.handle ev

def knownPrefixes (p : Participant) : List GuidPrefix :=
  p.spdp.peers.items.map ParticipantProxy.key ++
    (p.sedp.remoteWriters.items ++ p.sedp.remoteReaders.items).map fun info => info.guid.guidPrefix

theorem mem_knownPrefixes {p : Participant} {g : GuidPrefix} : g ∈ p.knownPrefixes ↔
      (∃ peer ∈ p.spdp.peers.items, peer.key = g) ∨
        (∃ info ∈ p.sedp.remoteWriters.items, info.guid.guidPrefix = g) ∨
        ∃ info ∈ p.sedp.remoteReaders.items, info.guid.guidPrefix = g := by
  rw [knownPrefixes, mem_append, map_append, mem_append, List.mem_map, List.mem_map, List.mem_map]

/-- The settings are the same, and every prefix known in `q` is known in `p` or satisfies `V`. -/
structure Learns (V : GuidPrefix → Prop) (p q : Participant) : Prop where
  cfg : q.config = p.config
  known : ∀ g ∈ q.knownPrefixes, g ∈ p.knownPrefixes ∨ V g

section Learns

variable {V : GuidPrefix → Prop} {p q s : Participant}

theorem Learns.trans (h : Learns V p q) (h' : Learns V q s) : Learns V p s := by
  refine ⟨h'.cfg.trans h.cfg, fun g hg => ?_⟩
  rcases h'.known g hg with hq | hv
  · exact h.known g hq
  · exact .inr hv

theorem Learns.mono {W : GuidPrefix → Prop} (h : Learns V p q) (hVW : ∀ g, V g → W g) :
    Learns W p q :=
  ⟨h.cfg, fun g hg => (h.known g hg).imp id (hVW g)⟩

theorem Learns.of_same (hcfg : q.config = p.config)
    (hknown : q.knownPrefixes = p.knownPrefixes) : Learns V p q :=
  ⟨hcfg, fun _ hg => .inl (hknown ▸ hg)⟩

theorem Learns.refl (p : Participant) : Learns V p p := .of_same rfl rfl

theorem Learns.of_sameSetup (h : SameSetup p q) : Learns V p q := by
  refine .of_same h.cfg ?_
  rw [knownPrefixes, knownPrefixes, h.sedp, h.spdp]

theorem learns_run {ι : Type*} {step : Participant → ι → Participant × List Effect} {is : List ι}
    (h : ∀ q, q.config = p.config → ∀ i ∈ is, Learns V q (step q i).1) :
    Learns V p (run step p is).1 := by
  induction is generalizing p with
  | nil => exact Learns.refl p
  | cons i is ih =>
    have hstep := h p rfl i mem_cons_self
    refine hstep.trans (ih fun q hq j hj => ?_)
    exact h q (hq.trans hstep.cfg) j (mem_cons_of_mem i hj)

/-! ## What each handler learns -/

theorem learns_announce (w r : EntityId) (info : EndpointInfo) (proxy : Option ParticipantProxy) :
    Learns V p (announce w r p info proxy).1 :=
  .of_same rfl rfl

theorem learns_onNewPeer (proxy : ParticipantProxy) : Learns V p (p.onNewPeer proxy).1 := by
  have hwriters : Learns V p (run (fun q info => announceWriter q info (some proxy)) p
      p.sedp.localWriters.items).1 :=
    learns_run fun q _ info _ => learns_announce _ _ info _
  exact hwriters.trans (learns_run fun q _ info _ => learns_announce _ _ info _)

theorem learns_storePeer {proxy : ParticipantProxy} (hv : V proxy.key) (now : Int) :
    Learns V p (p.storePeer proxy now).1 := by
  refine ⟨rfl, fun g hg => ?_⟩
  rw [mem_knownPrefixes] at hg ⊢
  rcases hg with ⟨peer, hpeer, rfl⟩ | hg
  · rcases mem_insert.1 hpeer with rfl | ⟨hold, -⟩
    · exact .inr hv
    · exact .inl (.inl ⟨peer, hold, rfl⟩)
  · exact .inl (.inr hg)

theorem learns_onRemoteWriter {info : EndpointInfo} (hv : V info.guid.guidPrefix) (l : Locator)
    (now : Int) : Learns V p (p.onRemoteWriter info l now) := by
  refine ⟨rfl, fun g hg => ?_⟩
  rw [mem_knownPrefixes] at hg ⊢
  rcases hg with hpeer | ⟨i, hi, rfl⟩ | hreader
  · exact .inl (.inl hpeer)
  · rcases mem_insert.1 hi with rfl | ⟨hold, -⟩
    · exact .inr hv
    · exact .inl (.inr (.inl ⟨i, hold, rfl⟩))
  · exact .inl (.inr (.inr hreader))

theorem learns_onRemoteReader {info : EndpointInfo} (hv : V info.guid.guidPrefix) (l : Locator) :
    Learns V p (p.onRemoteReader info l) := by
  refine ⟨rfl, fun g hg => ?_⟩
  rw [mem_knownPrefixes] at hg ⊢
  rcases hg with hpeer | hwriter | ⟨i, hi, rfl⟩
  · exact .inl (.inl hpeer)
  · exact .inl (.inr (.inl hwriter))
  · rcases mem_insert.1 hi with rfl | ⟨hold, -⟩
    · exact .inr hv
    · exact .inl (.inr (.inr ⟨i, hold, rfl⟩))

theorem learns_onPeerEvicted (gone : GuidPrefix) : Learns V p (p.onPeerEvicted gone) := by
  refine ⟨rfl, fun g hg => .inl ?_⟩
  rw [mem_knownPrefixes] at hg ⊢
  rcases hg with hpeer | ⟨i, hi, rfl⟩ | ⟨i, hi, rfl⟩
  · exact .inl hpeer
  · exact .inr (.inl ⟨i, mem_of_mem_filter hi, rfl⟩)
  · exact .inr (.inr ⟨i, mem_of_mem_filter hi, rfl⟩)

theorem learns_evictExpired (now : Int) : Learns V p (p.evictExpired now).1 := by
  refine Learns.trans ?_ (learns_run fun q _ gone _ => learns_onPeerEvicted gone)
  refine ⟨rfl, fun g hg => .inl ?_⟩
  rw [mem_knownPrefixes] at hg ⊢
  rcases hg with ⟨peer, hpeer, rfl⟩ | hg
  · exact .inl ⟨peer, mem_of_mem_filter hpeer, rfl⟩
  · exact .inr hg

end Learns

/-! ## Tags -/

structure Announcement where
  sender : GuidPrefix
  writer : EntityId
  payload : Bytes

def announcementOf (sender : GuidPrefix) (s : Submessage) : Option Announcement :=
  (discoveryData s).map fun d => ⟨sender, d.1, d.2⟩

def announcementsIn (own : GuidPrefix) (pkt : Packet) : List Announcement :=
  match submessagesOf own pkt.data with
  | none => []
  | some (sender, subs) => subs.filterMap (announcementOf sender)

namespace Announcement

def OfEndpoint (a : Announcement) : Prop :=
  a.writer = entityIdSEDPPubWriter ∨ a.writer = entityIdSEDPSubWriter
  deriving Decidable

def tagValid (plugin : DiscoveryPlugin) (src : Option UDPAddr) (a : Announcement)
    (g : GuidPrefix) : Bool :=
  if a.writer = entityIdSPDPWriter then
    plugin.verifyDiscovery g (extractDiscoveryToken a.payload)
  else if a.OfEndpoint then
    plugin.endpoint.any fun ep =>
      (parseEndpointData g a.payload (a.writer = entityIdSEDPPubWriter) src).any fun e =>
        ep.verifyEndpoint g e.info.topicName e.endpointTag
  else false

def namesSender (a : Announcement) : Bool :=
  let pid := if a.writer = entityIdSPDPWriter then pidParticipantGUID else pidEndpointGUID
  (lastGUID pid ((paramsOf a.payload).getD [])).all fun g => g.guidPrefix = a.sender

theorem not_spdp_of_ofEndpoint (h : a.OfEndpoint) : a.writer ≠ entityIdSPDPWriter := by
  rcases h with h | h
  all_goals
    rw [h]
    decide

theorem guidPrefix_getD {o : Option GUID} {eid : EntityId}
    (h : o.all (fun g => g.guidPrefix = sender) = true) :
    (o.getD ⟨sender, eid⟩).guidPrefix = sender := by
  cases o with
  | none => rfl
  | some g => simpa using h

theorem key_of_namesSender (hself : a.namesSender) (hw : a.writer = entityIdSPDPWriter)
    {src : Option UDPAddr} {proxy : ParticipantProxy}
    (h : parseParticipantData a.sender a.payload src = some proxy) : proxy.key = a.sender := by
  obtain ⟨ps, hps, rfl⟩ := map_eq_some_iff.1 h
  rw [namesSender, if_pos hw, hps, getD_some] at hself
  rw [ParticipantProxy.key, ParticipantProxy.guid_foldl_read]
  exact guidPrefix_getD hself

theorem guid_of_namesSender (hself : a.namesSender) (hw : a.OfEndpoint) {isWriter : Bool}
    {src : Option UDPAddr} {e : EndpointAnnounce}
    (h : parseEndpointData a.sender a.payload isWriter src = some e) :
    e.info.guid.guidPrefix = a.sender := by
  obtain ⟨ps, hps, rfl⟩ := map_eq_some_iff.1 h
  rw [namesSender, if_neg (not_spdp_of_ofEndpoint hw), hps, getD_some] at hself
  show (EndpointAnnounce.guid _).guidPrefix = a.sender
  rw [EndpointAnnounce.guid_foldl_read]
  exact guidPrefix_getD hself

end Announcement

section Authenticated

variable {p : Participant} {plugin : DiscoveryPlugin} {ep : EndpointPlugin} {src : Option UDPAddr}

open Announcement

theorem learns_handleEndpointAnnounce (hplugin : p.discoveryPlugin = some plugin)
    (hep : plugin.endpoint = some ep) (hw : a.OfEndpoint)
    (hself : a.tagValid plugin src a.sender → a.namesSender) (now : Int) :
    Learns (fun g => a.tagValid plugin src g) p
      (p.handleEndpointAnnounce a.sender a.payload (a.writer = entityIdSEDPPubWriter) src now) := by
  unfold handleEndpointAnnounce
  cases hparse : parseEndpointData a.sender a.payload (a.writer = entityIdSEDPPubWriter) src with
  | none => exact Learns.refl p
  | some e =>
    dsimp only
    by_cases htopic : e.info.topicName = []
    · rw [if_pos htopic]
      exact Learns.refl p
    · by_cases hver : verifiesEndpoint p.config a.sender e
      · have hvalid : a.tagValid plugin src a.sender := by
          rw [verifiesEndpoint, endpointPlugin, hplugin, bind_some, hep] at hver
          rw [tagValid, if_neg (not_spdp_of_ofEndpoint hw), if_pos hw, hep, hparse]
          exact hver
        have hguid := guid_of_namesSender (hself hvalid) hw hparse
        rw [if_neg htopic, if_neg (by simp [hver])]
        split_ifs
        · exact learns_onRemoteWriter (by rwa [hguid]) _ _
        · exact learns_onRemoteReader (by rwa [hguid]) _
      · rw [if_neg htopic, if_pos (by simpa using hver)]
        exact Learns.refl p

theorem learns_sedpSubmessage (hplugin : p.discoveryPlugin = some plugin)
    (hep : plugin.endpoint = some ep) {s : Submessage}
    (hself : ∀ a ∈ announcementOf sender s, a.tagValid plugin src sender →
      a.namesSender) (now : Int) :
    Learns (fun g => ∃ a ∈ announcementOf sender s, a.tagValid plugin src g) p
      (sedpSubmessage sender src now p s) := by
  unfold sedpSubmessage
  cases hd : discoveryData s with
  | none => exact Learns.refl p
  | some d =>
    have hmem : (⟨sender, d.1, d.2⟩ : Announcement) ∈ announcementOf sender s := by
      rw [announcementOf, hd]
      rfl
    have hlearn := fun hw => learns_handleEndpointAnnounce hplugin hep hw (hself _ hmem) now
    dsimp only
    by_cases hpub : d.1 = entityIdSEDPPubWriter
    · rw [if_pos hpub]
      have h := hlearn (.inl hpub)
      rw [decide_eq_true hpub] at h
      exact h.mono fun g hg => ⟨_, hmem, hg⟩
    · rw [if_neg hpub]
      by_cases hsub : d.1 = entityIdSEDPSubWriter
      · rw [if_pos hsub]
        have h := hlearn (.inr hsub)
        rw [decide_eq_false hpub] at h
        exact h.mono fun g hg => ⟨_, hmem, hg⟩
      · rw [if_neg hsub]
        exact Learns.refl p

theorem learns_spdpSubmessage (hplugin : p.discoveryPlugin = some plugin) {s : Submessage}
    (hself : ∀ a ∈ announcementOf sender s, a.tagValid plugin src sender →
      a.namesSender) (now : Int) :
    Learns (fun g => ∃ a ∈ announcementOf sender s, a.tagValid plugin src g) p
      (spdpSubmessage sender src now p s).1 := by
  unfold spdpSubmessage
  cases hd : discoveryData s with
  | none => exact Learns.refl p
  | some d =>
    have hmem : (⟨sender, d.1, d.2⟩ : Announcement) ∈ announcementOf sender s := by
      rw [announcementOf, hd]
      rfl
    dsimp only
    by_cases hw : d.1 = entityIdSPDPWriter
    · by_cases hver : verifiesDiscovery p.config sender d.2
      · have hvalid : tagValid plugin src ⟨sender, d.1, d.2⟩ sender := by
          rw [verifiesDiscovery, hplugin] at hver
          rw [tagValid, if_pos hw]
          exact hver
        rw [if_neg (not_not_intro hw), if_neg (by simp [hver])]
        cases hparse : parseParticipantData sender d.2 src with
        | none => exact Learns.refl p
        | some proxy =>
          have hkey := Announcement.key_of_namesSender (hself _ hmem hvalid) hw hparse
          refine Learns.trans (learns_storePeer ?_ now) (learns_onNewPeer _)
          rw [hkey]
          exact ⟨_, hmem, hvalid⟩
      · rw [if_neg (not_not_intro hw), if_pos (by simpa using hver)]
        exact Learns.refl p
    · rw [if_pos hw]
      exact Learns.refl p

/-- A packet in which each announcement with a valid tag names its sender. -/
def SelfNamed (plugin : DiscoveryPlugin) (own : GuidPrefix) (pkt : Packet) : Prop :=
  ∀ a ∈ announcementsIn own pkt, a.tagValid plugin pkt.src a.sender = true → a.namesSender = true
  deriving Decidable

def CarriesTag (plugin : DiscoveryPlugin) (own : GuidPrefix) (pkt : Packet) (g : GuidPrefix) :
    Prop :=
  ∃ a ∈ announcementsIn own pkt, a.tagValid plugin pkt.src g = true
  deriving Decidable

theorem learns_packet (hself : SelfNamed plugin p.guidPrefix pkt) {subs : List Submessage}
    (hsubs : submessagesOf p.guidPrefix pkt.data = some (sender, subs))
    {step : Participant → Submessage → Participant × List Effect}
    (hstep : ∀ q s, q.config = p.config →
      (∀ a ∈ announcementOf sender s, a.tagValid plugin pkt.src sender → a.namesSender) →
      Learns (fun g => ∃ a ∈ announcementOf sender s, a.tagValid plugin pkt.src g) q
        (step q s).1) : Learns (CarriesTag plugin p.guidPrefix pkt) p (run step p subs).1 := by
  have hin : ∀ s ∈ subs, ∀ a ∈ announcementOf sender s, a ∈ announcementsIn p.guidPrefix pkt := by
    intro s hs a ha
    rw [announcementsIn, hsubs]
    exact mem_filterMap.2 ⟨s, hs, ha⟩
  have hsender : ∀ s, ∀ a ∈ announcementOf sender s, a.sender = sender := by
    intro s a ha
    obtain ⟨d, -, rfl⟩ := map_eq_some_iff.1 ha
    rfl
  refine learns_run fun q hq s hs => ?_
  refine (hstep q s hq fun a ha htag => ?_).mono fun g hg => ?_
  · refine hself a (hin s hs a ha) ?_
    rw [hsender s a ha]
    exact htag
  · obtain ⟨a, ha, htag⟩ := hg
    exact ⟨a, hin s hs a ha, htag⟩

theorem learns_spdpHandlePacket (hplugin : p.discoveryPlugin = some plugin)
    (hself : SelfNamed plugin p.guidPrefix pkt) :
    Learns (CarriesTag plugin p.guidPrefix pkt) p (p.spdpHandlePacket pkt).1 := by
  unfold spdpHandlePacket
  cases hsubs : submessagesOf p.guidPrefix pkt.data with
  | none => exact Learns.refl p
  | some r =>
    refine learns_packet hself hsubs fun q s hq hs => ?_
    exact learns_spdpSubmessage ((congrArg discoveryPlugin hq).trans hplugin) hs _

theorem learns_sedpHandlePacket (hplugin : p.discoveryPlugin = some plugin)
    (hep : plugin.endpoint = some ep) (hself : SelfNamed plugin p.guidPrefix pkt) :
    Learns (CarriesTag plugin p.guidPrefix pkt) p (p.sedpHandlePacket pkt).1 := by
  unfold sedpHandlePacket
  cases hsubs : submessagesOf p.guidPrefix pkt.data with
  | none => exact Learns.refl p
  | some r =>
    refine learns_packet hself hsubs fun q s hq hs => ?_
    exact learns_sedpSubmessage ((congrArg discoveryPlugin hq).trans hplugin) hep
      hs _

theorem sameSetup_handle (p : Participant) (ev : Event) : SameSetup p (p.handle ev).1 := by
  rw [handle_eq_run]
  exact sameSetup_run_perform p _

theorem learns_node (hplugin : p.discoveryPlugin = some plugin) (hep : plugin.endpoint = some ep)
    {ev : NodeEvent} (hself : ∀ pkt ∈ ev.packet?, SelfNamed plugin p.guidPrefix pkt) :
    Learns (fun g => ∃ pkt ∈ ev.packet?, CarriesTag plugin p.guidPrefix pkt g) p (p.node ev).1 := by
  cases ev with
  | spdp pkt =>
    exact (learns_spdpHandlePacket hplugin (hself pkt rfl)).mono fun g hg => ⟨pkt, rfl, hg⟩
  | sedp pkt =>
    exact (learns_sedpHandlePacket hplugin hep (hself pkt rfl)).mono fun g hg => ⟨pkt, rfl, hg⟩
  | stream pkt =>
    show Learns _ p (p.dispatchTCPPacket pkt).1
    unfold dispatchTCPPacket
    split
    · exact Learns.refl p
    · split
      · exact Learns.refl p
      · exact (learns_spdpHandlePacket hplugin (hself pkt rfl)).mono fun g hg => ⟨pkt, rfl, hg⟩
      · exact (learns_sedpHandlePacket hplugin hep (hself pkt rfl)).mono fun g hg => ⟨pkt, rfl, hg⟩
      · exact .of_sameSetup (sameSetup_handle p (.packet pkt))
  | announce => exact .of_same rfl rfl
  | evict now => exact learns_evictExpired now
  | user ev => exact .of_sameSetup (sameSetup_handle p ev)

/-- With a plugin that authenticates participant and endpoint announcements, in every run in which
each announcement with a valid tag names the prefix in its message header, a prefix known to the
participant is one for which a packet with a valid tag has been received. -/
theorem authenticated_discovery (hplugin : p.discoveryPlugin = some plugin)
    (hep : plugin.endpoint = some ep) (hnobody : p.knownPrefixes = []) (evs : List NodeEvent)
    (hself : ∀ pkt ∈ received evs, SelfNamed plugin p.guidPrefix pkt) {g : GuidPrefix}
    (hg : g ∈ (Run.run node p evs).1.knownPrefixes) :
    ∃ pkt ∈ received evs, CarriesTag plugin p.guidPrefix pkt g := by
  have hin : ∀ ev ∈ evs, ∀ pkt ∈ ev.packet?, pkt ∈ received evs :=
    fun ev hev pkt hpkt => mem_filterMap.2 ⟨ev, hev, hpkt⟩
  have hlearns : Learns (fun g => ∃ pkt ∈ received evs, CarriesTag plugin p.guidPrefix pkt g) p
      (run node p evs).1 := by
    refine learns_run fun q hq ev hev => ?_
    have hown : q.guidPrefix = p.guidPrefix := congrArg guidPrefix hq
    have hself' : ∀ pkt ∈ ev.packet?, SelfNamed plugin q.guidPrefix pkt :=
      fun pkt hpkt => hown ▸ hself pkt (hin ev hev pkt hpkt)
    have hstep := learns_node ((congrArg discoveryPlugin hq).trans hplugin) hep
      hself'
    refine hstep.mono fun g hg => ?_
    obtain ⟨pkt, hpkt, htag⟩ := hg
    exact ⟨pkt, hin ev hev pkt hpkt, hown ▸ htag⟩
  rcases hlearns.known g hg with hold | hnew
  · rw [hnobody] at hold
    cases hold
  · exact hnew

end Authenticated

/-- A plugin whose tags are the key, the prefix, and for endpoints the front of the topic. -/
def keyedPlugin (key : Bytes) : DiscoveryPlugin :=
  { signDiscovery := fun g => key ++ g.toBytes
    verifyDiscovery := fun g tag => tag = key ++ g.toBytes
    endpoint := some
      { signEndpoint := fun g topic => key ++ (g.toBytes ++ (FixedBytes.copy 4 topic).toBytes)
        verifyEndpoint := fun g topic tag =>
          tag = key ++ (g.toBytes ++ (FixedBytes.copy 4 topic).toBytes) } }

def authenticating (own : GuidPrefix) : ParticipantConfig :=
  { ParticipantConfig.ofDefaults own with discoveryPlugin := some (keyedPlugin (str "key!")) }

def announcementPacket (sender : GuidPrefix) (payload : Bytes) : Packet :=
  ⟨wrapInRTPSMessage sender
    (marshalDataSubmessage entityIdSPDPWriter entityIdSPDPReader ⟨0, 1⟩ payload), none, 0⟩

theorem authenticated_discovery_peer :
    let own : GuidPrefix := copy 12 [1]
    let peer : GuidPrefix := copy 12 [2]
    let pkt := announcementPacket peer (authenticating peer).buildParticipantData
    peer ∈ (run node (new (authenticating own) none) [.spdp pkt]).1.knownPrefixes ∧
      ∃ pkt' ∈ received [.spdp pkt], CarriesTag (keyedPlugin (str "key!")) own pkt' peer := by
  intro own peer pkt
  have hg : peer ∈
      (run node (new (authenticating own) none) [.spdp pkt]).1.knownPrefixes := by decide +kernel
  refine ⟨hg, authenticated_discovery rfl rfl rfl [.spdp pkt] ?_ hg⟩
  decide +kernel

/-- The message has an insider's header and tag, and the payload the identifier of a participant
that never sent anything. -/
theorem stranger_stored :
    let own : GuidPrefix := copy 12 [1]
    let insider : GuidPrefix := copy 12 [2]
    let stranger : GuidPrefix := copy 12 [3]
    let plugin := keyedPlugin (str "key!")
    let payload := ((PLCDREncoder.new.addGUID pidParticipantGUID
      ⟨stranger, entityIdParticipant⟩).addParam pidDiscoveryToken
        (plugin.signDiscovery insider)).finish
    let evs := [NodeEvent.spdp (announcementPacket insider payload)]
    stranger ∈ (run node (new (authenticating own) none) evs).1.knownPrefixes ∧
      ¬ ∃ pkt ∈ received evs, CarriesTag plugin own pkt stranger := by decide +kernel

end Participant

end GoDDS
