import GoDDS.Rtps.Sedp

/-!
# The round trip of an endpoint announcement

The decoder's state is followed through the encoder (`Reads`). The address of a writer is stored
only if a local reader matches it then (`onRemoteWriter`).
-/

namespace GoDDS

open ByteCodec Go List Option PLCDREncoder ParticipantConfig FixedBytes

section Reads

variable {src : Option UDPAddr} {a₀ a : EndpointAnnounce} {e : PLCDREncoder}

/-- Reading the list under construction takes `a₀` to `a`, unless it is too long for a message. -/
def Reads (src : Option UDPAddr) (a₀ : EndpointAnnounce) (e : PLCDREncoder)
    (a : EndpointAnnounce) : Prop :=
  e.buf.length < 65516 → ∃ ps, e.Holds ps ∧ ps.foldl (EndpointAnnounce.read src) a₀ = a

theorem reads_new (src : Option UDPAddr) (a : EndpointAnnounce) : Reads src a new a :=
  fun _ => ⟨[], holds_new, rfl⟩

theorem reads_addParam {γ : Type} {decode : Bytes → Option γ} {put : γ → EndpointAnnounce}
    {value : Bytes} {x : γ} (h : Reads src a₀ e a) (pid : UInt16)
    (hpid : pid ∉ [pidSentinel, pidPad]) (hread : ∀ v, a.read src ⟨pid, v⟩ = (decode v).elim a put)
    (hvalue : value.length < 65516 → decode (padded value) = some x) :
    Reads src a₀ (e.addParam pid value) (put x) := by
  intro hlen
  simp only [mem_cons, not_mem_nil, or_false, not_or] at hpid
  have hsum : e.buf.length + (2 + (2 + (padded value).length)) < 65516 := by
    simpa [addParam, encodeParam] using hlen
  have hfits := length_le_padded value
  obtain ⟨ps, hps, hfold⟩ := h (by omega)
  refine ⟨_, holds_addParam hps hpid.1 hpid.2 (by omega), ?_⟩
  rw [foldl_append, hfold, foldl_cons, foldl_nil, hread, hvalue (by omega),
    elim_some]

theorem reads_addString {put : Str → EndpointAnnounce} (h : Reads src a₀ e a) (s : Str)
    (pid : UInt16) (hpid : pid ∉ [pidSentinel, pidPad])
    (hread : ∀ v, a.read src ⟨pid, v⟩ = (decodeString v).elim a put) :
    Reads src a₀ (e.addString pid s) (put s) := by
  refine reads_addParam h pid hpid hread fun hlen => decodeString_padded ?_
  simp only [length_append, length_u32, length_singleton] at hlen
  omega

theorem reads_foldl_addString {put : EndpointAnnounce → Str → EndpointAnnounce}
    (h : Reads src a₀ e a) (ss : List Str) (pid : UInt16) (hpid : pid ∉ [pidSentinel, pidPad])
    (hread : ∀ b v, b.read src ⟨pid, v⟩ = (decodeString v).elim b (put b)) :
    Reads src a₀ (ss.foldl (fun e s => e.addString pid s) e) (ss.foldl put a) := by
  induction ss generalizing e a with
  | nil => exact h
  | cons s ss ih => exact ih (reads_addString h s pid hpid (hread a))

end Reads

/-! ## The decoder behind a whole announcement -/

/-- The endpoints announcements are made for: with names, a filter compiled by `parse` on readers
only, and ownership and a 64-bit lease on writers only. -/
structure EndpointInfo.Announceable (parse : Str → List Str → Option (Bytes → Bool))
    (info : EndpointInfo) : Prop where
  topicName : info.topicName ≠ []
  typeName : info.typeName ≠ []
  filter : ∀ cf ∈ info.contentFilter, parse cf.text cf.params = some cf.expr
  lease : 0 ≤ info.livelinessLease ∧ info.livelinessLease < 2 ^ 63
  writer : info.isWriter = true → info.contentFilter = none
  reader : info.isWriter = false → info.ownershipExclusive = false ∧ info.livelinessLease = 0

/-- The endpoint as its peers see it: a strength counts only with exclusive ownership. -/
def EndpointInfo.announced (info : EndpointInfo) : EndpointInfo :=
  { info with ownershipStrength := if info.ownershipExclusive then info.ownershipStrength else 0 }

variable {info : EndpointInfo} {cfg : ParticipantConfig}

section Announcement

variable {src : Option UDPAddr} {a₀ a : EndpointAnnounce} {e : PLCDREncoder}

theorem foldl_partitions (ss : List Str) (a : EndpointAnnounce) :
    ss.foldl (fun a s => { a with info.partitions := a.info.partitions ++ [s] }) a =
      { a with info.partitions := a.info.partitions ++ ss } := by
  induction ss generalizing a with
  | nil => simp
  | cons s ss ih => simp [ih]

theorem foldl_cfParams (ss : List Str) (a : EndpointAnnounce) :
    ss.foldl (fun a s => { a with cfParams := a.cfParams ++ [s] }) a =
      { a with cfParams := a.cfParams ++ ss } := by
  induction ss generalizing a with
  | nil => simp
  | cons s ss ih => simp [ih]

theorem reads_filter (h : Reads src a₀ e a) (hexpr : a.cfExpr = []) (hparams : a.cfParams = [])
    (cf : Option ContentFilterSpec) : Reads src a₀ (match cf with
      | none => e
      | some cf => cf.params.foldl (fun e v => e.addString pidContentFilterParam v)
          (e.addString pidContentFilterExpr cf.text)) { a with
        cfExpr := (cf.map ContentFilterSpec.text).getD []
        cfParams := (cf.map ContentFilterSpec.params).getD [] } := by
  cases cf with
  | none => simpa [← hexpr, ← hparams] using h
  | some cf =>
    have hall := reads_foldl_addString (reads_addString h cf.text pidContentFilterExpr
      (by decide) fun _ => rfl) cf.params pidContentFilterParam (by decide) fun _ _ => rfl
    rw [foldl_cfParams] at hall
    simpa [hparams] using hall

theorem toInt_ofInt_lease {t : Int} (h : 0 ≤ t ∧ t < 2 ^ 63) : (Int64.ofInt t).toInt = t :=
  Int64.toInt_ofInt_of_le (by omega) (by omega)

theorem reads_addWriterQoS (h : Reads src a₀ e a)
    (hlease : 0 ≤ info.livelinessLease ∧ info.livelinessLease < 2 ^ 63)
    (hexclusive : a.info.ownershipExclusive = false) (hstrength : a.info.ownershipStrength = 0)
    (hnone : a.info.livelinessLease = 0) : Reads src a₀ (addWriterQoS info e)
      { a with
        info.ownershipExclusive := info.ownershipExclusive
        info.ownershipStrength := if info.ownershipExclusive then info.ownershipStrength else 0
        info.livelinessLease := info.livelinessLease } := by
  have hown : Reads src a₀
      (if info.ownershipExclusive then
        (e.addUint32 pidOwnership 1).addUint32 pidOwnershipStrength info.ownershipStrength.toUInt32
      else e)
      { a with
        info.ownershipExclusive := info.ownershipExclusive
        info.ownershipStrength :=
          if info.ownershipExclusive then info.ownershipStrength else 0 } := by
    by_cases hx : info.ownershipExclusive
    · have hkind := reads_addParam h pidOwnership (by decide) (fun _ => rfl)
        fun _ => decodeUint32_padded 1
      have hboth := reads_addParam hkind pidOwnershipStrength (by decide) (fun _ => rfl)
        fun _ => decodeUint32_padded info.ownershipStrength.toUInt32
      simpa [hx, addUint32] using hboth
    · have hsame : a = { a with info.ownershipExclusive := false, info.ownershipStrength := 0 } := by
        simp only [← hexclusive, ← hstrength]
      simpa [hx, ← hsame] using h
  rw [addWriterQoS]
  by_cases hpos : 0 < info.livelinessLease
  · rw [if_pos hpos]
    have hall := reads_addParam hown pidLivelinessLeaseDuration (by decide) (fun _ => rfl)
      fun _ => decodeInt64_padded (Int64.ofInt info.livelinessLease)
    rw [toInt_ofInt_lease hlease] at hall
    exact hall
  · have hzero : info.livelinessLease = a.info.livelinessLease := by omega
    rw [if_neg hpos, hzero]
    exact hown

def EndpointInfo.announce (info : EndpointInfo) (port : Nat) (src : Option UDPAddr) :
    EndpointAnnounce :=
  { info := { info.announced with contentFilter := none }
    dataLocator := (locatorFromUDP ipv4zero port).fillIn src
    endpointTag := []
    cfExpr := (info.contentFilter.map ContentFilterSpec.text).getD []
    cfParams := (info.contentFilter.map ContentFilterSpec.params).getD [] }

theorem reads_endpointParams (cfg : ParticipantConfig) (h : info.Announceable cfg.filterParse)
    (sender : GuidPrefix) (src : Option UDPAddr) :
    Reads src (.start sender info.isWriter) (cfg.endpointParams info)
      (info.announce cfg.dataSockPort src) := by
  have hguid := reads_addParam (reads_new src (.start sender info.isWriter)) pidEndpointGUID
    (by decide) (fun _ => rfl) fun _ => decodeGUID_padded info.guid
  have htype := reads_addString (reads_addString hguid info.topicName pidTopicName
    (by decide) fun _ => rfl) info.typeName pidTypeName (by decide) fun _ => rfl
  have hloc := reads_addParam htype pidDefaultUnicastLocator (by decide) (fun _ => rfl)
    fun _ => unmarshalLocator_padded (locatorFromUDP ipv4zero cfg.dataSockPort)
  have hparts := reads_foldl_addString hloc info.partitions pidPartition (by decide)
    fun _ _ => rfl
  rw [foldl_partitions] at hparts
  have hfilter := reads_filter hparts rfl rfl info.contentFilter
  unfold endpointParams
  rw [if_neg h.typeName]
  by_cases hw : info.isWriter
  · rw [if_pos hw]
    exact reads_addWriterQoS hfilter h.lease rfl rfl rfl
  · obtain ⟨hx, hlease⟩ := h.reader (by simpa using hw)
    rw [if_neg hw]
    refine cast (congrArg (Reads _ _ _) ?_) hfilter
    simp [EndpointInfo.announce, EndpointInfo.announced, EndpointAnnounce.start, hx, hlease]

end Announcement

/-! ## The tables of the receiver -/

theorem parseEndpointData_buildEndpointData (h : info.Announceable cfg.filterParse)
    (hplain : cfg.discoveryPlugin = none) (hlen : (cfg.buildEndpointData info).length < 65516)
    (sender : GuidPrefix) (src : Option UDPAddr) :
    parseEndpointData sender (cfg.buildEndpointData info) info.isWriter src =
      some (info.announce cfg.dataSockPort src) := by
  have hbytes : cfg.buildEndpointData info = (cfg.endpointParams info).finish := by
    rw [buildEndpointData, endpointPlugin, hplain]
    rfl
  rw [hbytes, finish, length_append] at hlen
  obtain ⟨ps, hps, hfold⟩ := reads_endpointParams cfg h sender src (by omega)
  rw [parseEndpointData, hbytes, paramsOf_finish hps, map_some, hfold]

theorem announcedFilter_announce (h : info.Announceable cfg.filterParse)
    (hempty : ∀ params, cfg.filterParse [] params = none) (port : Nat) (src : Option UDPAddr) :
    Participant.announcedFilter cfg (info.announce port src) = info.contentFilter := by
  cases hcf : info.contentFilter with
  | none => simp [Participant.announcedFilter, EndpointInfo.announce, hcf]
  | some cf =>
    have hparse := h.filter cf hcf
    have htext : cf.text ≠ [] := by
      intro hnil
      rw [hnil, hempty] at hparse
      exact absurd hparse (by simp)
    simp [Participant.announcedFilter, EndpointInfo.announce, hcf, htext, hparse]

theorem length_of_to4 {ip ip4 : Bytes} (h : to4 ip = some ip4) : ip4.length = 4 := by
  rw [to4] at h
  by_cases hfour : ip.length = 4
  · rw [if_pos hfour, Option.some.injEq] at h
    rw [← h, hfour]
  · by_cases hsixteen : ip.length = 16 ∧ slice ip 0 12 = List.replicate 10 0 ++ [0xFF, 0xFF]
    · rw [if_neg hfour, if_pos hsixteen, Option.some.injEq] at h
      rw [← h, length_slice (by omega)]
    · rw [if_neg hfour, if_neg hsixteen] at h
      exact absurd h (by simp)

theorem udpAddr_fillIn {src : UDPAddr} {ip4 : Bytes} (hip : to4 src.ip = some ip4) {port : Nat}
    (hport : port < 65536) :
    ((locatorFromUDP ipv4zero port).fillIn (some src)).udpAddr = some ⟨ip4, port⟩ := by
  have hloc : locatorFromUDP ipv4zero port =
      ⟨locatorKindUDPv4, UInt32.ofNat port, copy 16 []⟩ := rfl
  have hport' : (UInt32.ofNat port).toNat = port :=
    UInt32.toNat_ofNat_of_lt' (by simp only [UInt32.size]; omega)
  have hfour := length_of_to4 hip
  have hslice : slice (copy 16 (List.replicate 12 0 ++ ip4)).toBytes 12 16 = ip4 := by
    show slice ((List.replicate 12 0 ++ ip4).take 16 ++
      List.replicate (16 - (List.replicate 12 0 ++ ip4).length) 0) 12 16 = ip4
    rw [take_of_length_le (by simp [hfour]), append_assoc, slice_skip (by simp)]
    exact slice_here (by simpa using hfour)
  simp only [hloc, Locator.fillIn, bind_some, hip, if_true, Locator.udpAddr, hslice, hport']

namespace Participant

theorem handleEndpointAnnounce_buildEndpointData {p : Participant}
    (h : info.Announceable cfg.filterParse) (hempty : ∀ params, cfg.filterParse [] params = none)
    (hparse : p.filterParse = cfg.filterParse)
    (hplain : cfg.discoveryPlugin = none ∧ p.discoveryPlugin = none)
    (hlen : (cfg.buildEndpointData info).length < 65516) (sender : GuidPrefix)
    (src : Option UDPAddr) (now : Int) :
    p.handleEndpointAnnounce sender (cfg.buildEndpointData info) info.isWriter src now =
      let loc := (locatorFromUDP ipv4zero cfg.dataSockPort).fillIn src
      if info.isWriter then p.onRemoteWriter info.announced loc now
      else p.onRemoteReader info.announced loc := by
  have hfilter : announcedFilter p.config (info.announce cfg.dataSockPort src) =
      info.contentFilter := by
    rw [← announcedFilter_announce h hempty cfg.dataSockPort src, announcedFilter,
      announcedFilter, hparse]
  have hverified : verifiesEndpoint p.config sender
      (info.announce cfg.dataSockPort src) := by
    simp [verifiesEndpoint, endpointPlugin, hplain.2]
  have htopic : (info.announce cfg.dataSockPort src).info.topicName ≠ [] := h.topicName
  rw [handleEndpointAnnounce, parseEndpointData_buildEndpointData h hplain.1 hlen]
  dsimp only
  rw [if_neg htopic, hverified, Bool.not_true, if_neg Bool.false_ne_true, hfilter]
  rfl

/-- The endpoint is stored as announced, the address of a reader with it, the one of a writer
exactly if a local reader matches. -/
theorem endpoint_round_trip (cfg : ParticipantConfig) (p : Participant) (info : EndpointInfo)
    (sender : GuidPrefix) (src : UDPAddr) (ip4 : Bytes) (now : Int)
    (h : info.Announceable cfg.filterParse) (hempty : ∀ params, cfg.filterParse [] params = none)
    (hparse : p.filterParse = cfg.filterParse)
    (hplain : cfg.discoveryPlugin = none ∧ p.discoveryPlugin = none)
    (hlen : (cfg.buildEndpointData info).length < 65516)
    (hip : to4 src.ip = some ip4) (hport : cfg.dataSockPort < 65536) :
    let q := p.handleEndpointAnnounce sender (cfg.buildEndpointData info) info.isWriter (some src) now
    let Stores (loc : Option Locator) : Prop :=
      loc.bind Locator.udpAddr = some ⟨ip4, cfg.dataSockPort⟩
    (info.isWriter = false →
      q.sedp.remoteReaders.get? info.guid = some info.announced ∧
        Stores (q.sedp.remoteReaderLocs info.guid)) ∧
    (info.isWriter = true →
      q.sedp.remoteWriters.get? info.guid = some info.announced ∧
        if p.matchedEIDs info = [] then q.writerLocators = p.writerLocators
        else Stores (q.writerLocators info.guid)) := by
  intro q Stores
  have hq := handleEndpointAnnounce_buildEndpointData h hempty hparse hplain hlen sender (some src) now
  have haddr := udpAddr_fillIn hip hport
  refine ⟨fun hreader => ?_, fun hwriter => ?_⟩
  · simp only [q, Stores, hreader, hq]
    refine ⟨Registry.get?_insert_self _ _, ?_⟩
    show (Table.set _ info.guid _ info.guid).bind _ = _
    rw [Table.set_self, bind_some, haddr]
  · simp only [hwriter, if_true] at hq
    simp only [q, Stores, hwriter, hq]
    refine ⟨Registry.get?_insert_self _ _, ?_⟩
    have hmatched : p.matchedEIDs info.announced = p.matchedEIDs info := rfl
    by_cases hnone : p.matchedEIDs info = []
    · rw [if_pos hnone, onRemoteWriter]
      simp [hmatched, hnone]
    · have hguid : info.announced.guid = info.guid := rfl
      rw [if_neg hnone, onRemoteWriter]
      simp [hmatched, hnone, hguid, haddr]

def leasedWriter : EndpointInfo :=
  { guid := ⟨FixedBytes.copy 12 [2], FixedBytes.copy 4 [0, 0, 1, 2]⟩, topicName := str "t",
    typeName := str "T", isWriter := true, partitions := [str "a", []], ownershipExclusive := true,
    ownershipStrength := 7, livelinessLease := 1000 }

def filteredReader : EndpointInfo :=
  { guid := ⟨FixedBytes.copy 12 [2], FixedBytes.copy 4 [0, 0, 2, 7]⟩, topicName := str "t",
    typeName := str "T", partitions := [str "a"],
    contentFilter := some ⟨fun _ => true, str "x > %0", [str "1"]⟩ }

def permissive (own : GuidPrefix) : ParticipantConfig :=
  { ParticipantConfig.ofDefaults own with
    filterParse := fun text _ => if text = [] then none else some fun _ => true }

theorem announceable_leasedWriter (own : GuidPrefix) :
    leasedWriter.Announceable (permissive own).filterParse where
  topicName := by decide
  typeName := by decide
  filter := fun _ h => absurd h (by simp [leasedWriter])
  lease := by decide
  writer := fun _ => rfl
  reader := by decide

theorem announceable_filteredReader (own : GuidPrefix) :
    filteredReader.Announceable (permissive own).filterParse where
  topicName := by decide
  typeName := by decide
  filter := by
    intro cf hcf
    rw [filteredReader, mem_some_iff] at hcf
    subst hcf
    rfl
  lease := by decide
  writer := by decide
  reader := by decide

def readingParticipant : Participant :=
  let idle := Participant.new (permissive (FixedBytes.copy 12 [1])) none
  { idle with sedp.localReaders := idle.sedp.localReaders.insert filteredReader }

theorem endpoint_round_trip_reading :
    let cfg := permissive (copy 12 [2])
    let heard (info : EndpointInfo) := readingParticipant.handleEndpointAnnounce cfg.guidPrefix
      (cfg.buildEndpointData info) info.isWriter (some ⟨[10, 0, 0, 2], 7410⟩) 0
    ((heard filteredReader).sedp.remoteReaders.get? filteredReader.guid =
        some filteredReader.announced ∧
      ((heard filteredReader).sedp.remoteReaderLocs filteredReader.guid).bind Locator.udpAddr =
        some ⟨[10, 0, 0, 2], cfg.dataSockPort⟩) ∧
    (heard leasedWriter).sedp.remoteWriters.get? leasedWriter.guid = some leasedWriter.announced ∧
      ((heard leasedWriter).writerLocators leasedWriter.guid).bind Locator.udpAddr =
        some ⟨[10, 0, 0, 2], cfg.dataSockPort⟩ := by
  intro cfg heard
  have hreader := (endpoint_round_trip cfg readingParticipant filteredReader cfg.guidPrefix
    ⟨[10, 0, 0, 2], 7410⟩ [10, 0, 0, 2] 0 (announceable_filteredReader _) (fun _ => rfl) rfl
    ⟨rfl, rfl⟩ (by decide +kernel) rfl (by decide)).1 rfl
  have hwriter := (endpoint_round_trip cfg readingParticipant leasedWriter cfg.guidPrefix
    ⟨[10, 0, 0, 2], 7410⟩ [10, 0, 0, 2] 0 (announceable_leasedWriter _) (fun _ => rfl) rfl
    ⟨rfl, rfl⟩ (by decide +kernel) rfl (by decide)).2 rfl
  have hmatched : readingParticipant.matchedEIDs leasedWriter ≠ [] := by decide +kernel
  obtain ⟨hstored, haddr⟩ := hwriter
  rw [if_neg hmatched] at haddr
  simp only [heard]
  exact ⟨hreader, hstored, haddr⟩

/-- A participant that does not read the topic stores the writer, but no address of it. -/
theorem unmatched_writer_without_address :
    let cfg := permissive (copy 12 [2])
    let p := Participant.new (permissive (copy 12 [1])) none
    let q := p.handleEndpointAnnounce cfg.guidPrefix (cfg.buildEndpointData leasedWriter) true
      (some ⟨[10, 0, 0, 2], 7410⟩) 0
    leasedWriter.Announceable cfg.filterParse ∧
      (cfg.buildEndpointData leasedWriter).length < 65516 ∧
      (q.sedp.remoteWriters.get? leasedWriter.guid).isSome = true ∧
      q.writerLocators leasedWriter.guid = none ∧
      q.sedp.remoteReaderLocs leasedWriter.guid = none :=
  ⟨announceable_leasedWriter _, by decide +kernel, by decide +kernel, by decide +kernel,
    by decide +kernel⟩

end Participant

end GoDDS
