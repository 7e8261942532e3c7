import GoDDS.Rtps.Sedp
import GoDDS.Rtps.Write

/-!
# Participant discovery
-/

namespace GoDDS

open ByteCodec Go

def defaultLeaseDuration : Int := 10 * second

/-- All built-in endpoints: announcer and detector of participants, writers and readers. -/
def builtinEndpoints : UInt32 := 0x3F

def relayIDFromGuidPrefix (guidPrefix : GuidPrefix) : Str :=
  guidPrefix.toBytes.flatMap fun b =>
    [b / 16, b % 16].map fun d => if d < 10 then 0x30 + d else 0x61 + (d - 10)

namespace ParticipantConfig

def participantParams (p : ParticipantConfig) : PLCDREncoder :=
  let e := PLCDREncoder.new.addParam pidProtocolVersion [2, 3, 0, 0]
  let e := e.addParam pidVendorId (goVendorId.toBytes ++ [0, 0])
  let e := e.addGUID pidParticipantGUID ⟨p.guidPrefix, entityIdParticipant⟩
  let e := e.addUint32 pidBuiltinEndpointSet builtinEndpoints
  let e := e.addLocator pidMetatrafficUnicastLocator (locatorFromUDP ipv4zero p.metaSockPort)
  let e := e.addLocator pidDefaultUnicastLocator (locatorFromUDP ipv4zero p.dataSockPort)
  let e := if p.relaySock then e.addString pidRelayID (relayIDFromGuidPrefix p.guidPrefix) else e
  e.addParam pidParticipantLeaseDuration (u32 10 ++ u32 0)

def buildParticipantData (p : ParticipantConfig) : Bytes :=
  match p.discoveryPlugin with
  | none => p.participantParams.finish
  | some plugin =>
    (p.participantParams.addParam pidDiscoveryToken (plugin.signDiscovery p.guidPrefix)).finish

def buildAnnouncementMessage (p : ParticipantConfig) (seq : UInt32) : Bytes :=
  wrapInRTPSMessage p.guidPrefix
    (marshalDataSubmessage entityIdSPDPWriter entityIdSPDPReader ⟨0, seq⟩ p.buildParticipantData)

end ParticipantConfig

def extractDiscoveryToken (payload : Bytes) : Bytes :=
  (((paramsOf payload).getD []).find? fun p => p.pid = pidDiscoveryToken).elim [] Param.value

namespace ParticipantProxy

def start (sender : GuidPrefix) : ParticipantProxy :=
  { guid := ⟨sender, entityIdParticipant⟩, metatrafficUnicast := zeroLocator,
    defaultUnicast := zeroLocator, builtinEndpoints := 0, leaseDuration := 0, lastSeen := 0,
    relayID := [] }

/-- Read one parameter. One that cannot be decoded, or has an unknown id, is skipped. -/
def read (src : Option UDPAddr) (proxy : ParticipantProxy) (p : Param) : ParticipantProxy :=
  if p.pid = pidMetatrafficUnicastLocator then
    (unmarshalLocator p.value).elim proxy fun l => { proxy with metatrafficUnicast := l.fillIn src }
  else if p.pid = pidDefaultUnicastLocator then
    (unmarshalLocator p.value).elim proxy fun l => { proxy with defaultUnicast := l.fillIn src }
  else if p.pid = pidBuiltinEndpointSet then
    (decodeUint32 p.value).elim proxy fun v => { proxy with builtinEndpoints := v }
  else if p.pid = pidParticipantLeaseDuration then
    (decodeUint32 p.value).elim proxy fun secs =>
      if 0 < secs then { proxy with leaseDuration := secs.toNat * second } else proxy
  else if p.pid = pidParticipantGUID then
    (decodeGUID p.value).elim proxy fun g => { proxy with guid := g }
  else if p.pid = pidRelayID then
    (decodeString p.value).elim proxy fun id =>
      if id ≠ [] then { proxy with relayID := id } else proxy
  else proxy

theorem guid_read (src : Option UDPAddr) (proxy : ParticipantProxy) (p : Param) :
    (proxy.read src p).guid =
      (if p.pid = pidParticipantGUID then decodeGUID p.value else none).getD proxy.guid := by
  unfold read
  by_cases hguid : p.pid = pidParticipantGUID
  · have hne : ∀ pid, pidParticipantGUID ≠ pid → p.pid ≠ pid := fun pid h => hguid ▸ h
    rw [if_neg (hne _ (by decide)), if_neg (hne _ (by decide)), if_neg (hne _ (by decide)),
      if_neg (hne _ (by decide)), if_pos hguid, if_pos hguid]
    cases decodeGUID p.value <;> rfl
  · rw [if_neg hguid, if_neg hguid, Option.getD_none]
    -- every other parameter leaves the identifier alone
    repeat' apply keep_ite (f := guid)
    all_goals first
      | rfl
      | exact keep_elim (f := guid) fun _ => rfl
      | exact keep_elim (f := guid) fun _ => keep_ite (f := guid) rfl rfl

theorem guid_foldl_read (src : Option UDPAddr) (ps : List Param) (proxy : ParticipantProxy) :
    (ps.foldl (read src) proxy).guid = (lastGUID pidParticipantGUID ps).getD proxy.guid :=
  foldl_lastGUID guid _ _ (guid_read src) ps proxy

end ParticipantProxy

def parseParticipantData (sender : GuidPrefix) (payload : Bytes) (src : Option UDPAddr) :
    Option ParticipantProxy :=
  (paramsOf payload).map (List.foldl (ParticipantProxy.read src) (.start sender))

/-! ## The peer table -/

namespace Participant

def livelinessEffects (p : ParticipantConfig) (guidPrefix : GuidPrefix) (event : LivelinessEvent) :
    List Effect :=
  if p.livelinessCb then [.liveliness ⟨guidPrefix, entityIdParticipant⟩ event] else []

def completeProxy (p : Participant) (proxy : ParticipantProxy) (now : Int) : ParticipantProxy :=
  { proxy with
    lastSeen := now
    leaseDuration := if proxy.leaseDuration = 0 then defaultLeaseDuration else proxy.leaseDuration
    relayID := if proxy.relayID = [] then p.relayIDForPrefix proxy.key else proxy.relayID }

def storePeer (p : Participant) (proxy : ParticipantProxy) (now : Int) :
    Participant × List Effect :=
  ({ p with
      spdp := { p.spdp with
        announcesReceived := p.spdp.announcesReceived + 1
        peers := p.spdp.peers.insert (p.completeProxy proxy now) } },
    if (p.spdp.peers.get? proxy.key).isNone then
      livelinessEffects p.config proxy.key .gained
    else [])

/-- The token of an announcement is valid for the sender, or tokens are not checked. -/
def verifiesDiscovery (p : ParticipantConfig) (sender : GuidPrefix) (payload : Bytes) : Bool :=
  p.discoveryPlugin.all fun plugin => plugin.verifyDiscovery sender (extractDiscoveryToken payload)

/-- With a discovery plugin an announcement is checked before it is read: its token has to be valid
for the prefix in the message header. The peer is then stored under the identifier in the
announcement (`guid_foldl_read`), which nothing compares with the header. -/
def spdpSubmessage (sender : GuidPrefix) (src : Option UDPAddr) (now : Int) (p : Participant)
    (s : Submessage) : Participant × List Effect :=
  match discoveryData s with
  | none => (p, [])
  | some (writer, payload) =>
    if writer ≠ entityIdSPDPWriter then (p, [])
    else if !verifiesDiscovery p.config sender payload then (p, [])
    else
      match parseParticipantData sender payload src with
      | none => (p, [])
      | some proxy =>
        let stored := p.storePeer proxy now
        let told := stored.1.onNewPeer (p.completeProxy proxy now)
        (told.1, stored.2 ++ told.2)

def spdpHandlePacket (p : Participant) (pkt : Packet) : Participant × List Effect :=
  match submessagesOf p.guidPrefix pkt.data with
  | none => (p, [])
  | some (sender, subs) => Run.run (spdpSubmessage sender pkt.src pkt.now) p subs

def sendAnnouncement (p : Participant) : Participant × List Effect :=
  let seq := p.seqCounter + 1
  ({ p with seqCounter := seq },
    [.multicast (metaMulticastAddr p.domain) (p.buildAnnouncementMessage seq)])

def expired (now : Int) (peer : ParticipantProxy) : Bool :=
  let d := if peer.leaseDuration = 0 then defaultLeaseDuration else peer.leaseDuration
  now - peer.lastSeen > d

def evictExpired (p : Participant) (now : Int) : Participant × List Effect :=
  let evicted := (p.spdp.peers.items.filter (expired now)).map ParticipantProxy.key
  let p := { p with
    spdp := { p.spdp with
      peers := p.spdp.peers.filter fun peer => !expired now peer
      peerEvictions := p.spdp.peerEvictions + UInt64.ofNat evicted.length } }
  Run.run (fun q gone =>
    (q.onPeerEvicted gone, livelinessEffects p.config gone .lost)) p evicted

end Participant

end GoDDS
