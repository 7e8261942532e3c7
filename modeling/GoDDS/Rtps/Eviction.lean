import GoDDS.Rtps.Addressing
import GoDDS.Rtps.OwnershipTable
import GoDDS.Rtps.ReaderLife

/-!
# What an eviction leaves behind

An evicted participant's endpoints leave the tables, and its exclusive writers the arbitration. The
readers are not told (`evicted_writer_still_accepted`).
-/

namespace GoDDS

open ByteCodec Go Security List Ownership Registry ParticipantConfig Reader.SameSources Run FixedBytes

variable {g : GUID} {now : Int} {topic : Str}

namespace Participant

/-- Nothing of the participant is left: no reader takes anything of its writers, none of these is in
the arbitration, and none of its readers is sent to. -/
structure Forgotten (gone : GuidPrefix) (p : Participant) : Prop where
  unaccepted : ∀ r ∈ p.readers.items, ∀ g : GUID, g.guidPrefix = gone →
    r.acceptsSource p.guidPrefix g = false
  unregistered : ∀ topic, ∀ g : GUID, g.guidPrefix = gone →
    ¬ Ownership.Registers p.ownership topic g
  unmatched : ∀ topic partitions, ∀ x ∈ p.matchedReaders topic partitions,
    x.1.guid.guidPrefix ≠ gone
  unreached : ∀ topic partitions, ∀ l ∈ p.matchedReaderLocators topic partitions,
    l.guidPrefix ≠ gone

def Unaddressed (gone : GuidPrefix) (p : Participant) : Prop :=
  ∀ info ∈ p.sedp.remoteReaders.items, info.guid.guidPrefix = gone →
    ∀ loc ∈ p.sedp.remoteReaderLocs info.guid, loc.kind = locatorKindInvalid

/-- No reader of this participant has writers of the other one among its sources. -/
def Unmatched (gone : GuidPrefix) (p : Participant) : Prop :=
  ∀ r ∈ p.readers.items, gone ≠ p.guidPrefix ∧ ∀ g ∈ r.sources, g.guidPrefix ≠ gone

variable {gone : GuidPrefix} {p q : Participant}

theorem unaccepted_iff : (∀ r ∈ p.readers.items, ∀ g : GUID, g.guidPrefix = gone →
      r.acceptsSource p.guidPrefix g = false) ↔ p.Unmatched gone := by
  refine forall₂_congr fun r _ => ?_
  simp only [← Bool.not_eq_true, Reader.acceptsSource_iff, not_or]
  constructor
  · intro h
    exact ⟨(h ⟨gone, entityIdUnknown⟩ rfl).1, fun g hg hgone => (h g hgone).2 hg⟩
  · rintro ⟨hown, hsources⟩ g rfl
    exact ⟨hown, fun hg => hsources g hg rfl⟩

theorem unmatched_iff :
    (∀ topic partitions, ∀ x ∈ p.matchedReaders topic partitions, x.1.guid.guidPrefix ≠ gone) ↔
      p.Unaddressed gone := by
  constructor
  · intro h info hinfo hgone loc hloc
    by_contra hkind
    have hpart : partitionsMatch info.partitions info.partitions := partitionsMatch_self _
    exact h info.topicName info.partitions (info, loc)
      (mem_matchedReaders.2 ⟨hinfo, rfl, hpart, hloc, hkind⟩) hgone
  · intro h topic partitions x hx hgone
    obtain ⟨hinfo, -, -, hloc, hkind⟩ := mem_matchedReaders.1 hx
    exact hkind (h x.1 hinfo hgone x.2 hloc)

theorem forgotten_iff : Forgotten gone p ↔ p.Unmatched gone ∧
      (∀ topic, ∀ g : GUID, g.guidPrefix = gone → ¬ Ownership.Registers p.ownership topic g) ∧
      p.Unaddressed gone := by
  constructor
  · intro h
    exact ⟨unaccepted_iff.1 h.unaccepted, h.unregistered, unmatched_iff.1 h.unmatched⟩
  · rintro ⟨hsources, hreg, haddr⟩
    refine ⟨unaccepted_iff.2 hsources, hreg, unmatched_iff.2 haddr, ?_⟩
    intro topic partitions l hl
    obtain ⟨x, hx, heq⟩ := exists_matchedReader hl
    rw [← heq]
    exact unmatched_iff.2 haddr topic partitions x hx

/-! ## The eviction -/

theorem remotelyBacked_onPeerEvicted_iff {evicted : GuidPrefix} :
    RemotelyBacked (p.onPeerEvicted evicted).sedp.remoteWriters topic g ↔
      RemotelyBacked p.sedp.remoteWriters topic g ∧ g.guidPrefix ≠ evicted := by
  unfold RemotelyBacked
  simp only [Option.mem_def, get?_eq_some]
  constructor
  · rintro ⟨info, ⟨hmem, rfl⟩, hback⟩
    obtain ⟨hmem, hne⟩ := mem_filter.1 hmem
    exact ⟨⟨info, ⟨hmem, rfl⟩, hback⟩, of_decide_eq_true hne⟩
  · rintro ⟨⟨info, ⟨hmem, rfl⟩, hback⟩, hne⟩
    exact ⟨info, ⟨mem_filter.2 ⟨hmem, decide_eq_true hne⟩, rfl⟩, hback⟩

theorem registers_onPeerEvicted_iff {evicted : GuidPrefix} :
    Ownership.Registers (p.onPeerEvicted evicted).ownership topic g ↔
      Ownership.Registers p.ownership topic g ∧
        ¬ (g.guidPrefix = evicted ∧ RemotelyBacked p.sedp.remoteWriters topic g) := by
  rw [ownership_onPeerEvicted, registers_foldl_leave]
  refine and_congr_right fun _ => ?_
  unfold RemotelyBacked
  simp only [Option.mem_def, get?_eq_some, List.mem_map, mem_filter, decide_eq_true_eq]
  constructor
  · rintro h ⟨hevicted, info, ⟨hmem, rfl⟩, hexcl, htopic⟩
    exact h _ ⟨info, ⟨hmem, hevicted⟩, rfl⟩ ⟨hexcl, htopic, rfl⟩
  · rintro h _ ⟨info, ⟨hmem, hevicted⟩, rfl⟩ ⟨hexcl, htopic, rfl⟩
    exact h ⟨hevicted, info, ⟨hmem, rfl⟩, hexcl, htopic⟩

theorem registers_foldl_onPeerEvicted (evicted : List GuidPrefix) :
    Ownership.Registers (evicted.foldl onPeerEvicted p).ownership topic g ↔
      Ownership.Registers p.ownership topic g ∧
        ¬ (g.guidPrefix ∈ evicted ∧ RemotelyBacked p.sedp.remoteWriters topic g) := by
  induction evicted generalizing p with
  | nil => simp
  | cons e evicted ih =>
    rw [foldl_cons, ih, registers_onPeerEvicted_iff, remotelyBacked_onPeerEvicted_iff, mem_cons]
    tauto

theorem remoteReaders_foldl_onPeerEvicted {info : EndpointInfo} (evicted : List GuidPrefix) :
    info ∈ (evicted.foldl onPeerEvicted p).sedp.remoteReaders.items ↔
      info ∈ p.sedp.remoteReaders.items ∧ info.guid.guidPrefix ∉ evicted := by
  induction evicted generalizing p with
  | nil => simp
  | cons e evicted ih =>
    rw [foldl_cons, ih, mem_cons, not_or]
    have hmem : info ∈ (p.onPeerEvicted e).sedp.remoteReaders.items ↔
        info ∈ p.sedp.remoteReaders.items ∧ info.guid.guidPrefix ≠ e := by
      refine mem_filter.trans (and_congr_right fun _ => ?_)
      exact decide_eq_true_iff
    rw [hmem, and_assoc]

/-- No reader takes anything of the participant, and the table of remote writers knows its
registrations. -/
structure Cleared (gone : GuidPrefix) (p : Participant) : Prop where
  unaccepted : ∀ r ∈ p.readers.items, ∀ g : GUID, g.guidPrefix = gone →
    r.acceptsSource p.guidPrefix g = false
  known : ∀ topic, ∀ g : GUID, g.guidPrefix = gone → Ownership.Registers p.ownership topic g →
    RemotelyBacked p.sedp.remoteWriters topic g

theorem config_evictExpired (now : Int) :
    (p.evictExpired now).1.config = p.config :=
  p.config_turn (.evict now)

theorem forgotten_evictExpired_iff (hgone : gone ∈ p.expiredPrefixes now) :
    Forgotten gone (p.evictExpired now).1 ↔ p.Cleared gone := by
  have hreg : ∀ topic, ∀ g : GUID, g.guidPrefix = gone →
      (¬ Ownership.Registers (p.evictExpired now).1.ownership topic g ↔
        (Ownership.Registers p.ownership topic g →
          RemotelyBacked p.sedp.remoteWriters topic g)) := by
    rintro topic g rfl
    rw [evictExpired_eq, registers_foldl_onPeerEvicted]
    show ¬ (Ownership.Registers p.ownership topic g ∧
      ¬ (_ ∧ RemotelyBacked p.sedp.remoteWriters topic g)) ↔ _
    rw [and_iff_right hgone, not_and_not_right]
  have haddr : Unaddressed gone (p.evictExpired now).1 := by
    intro info hinfo hprefix
    rw [evictExpired_eq, remoteReaders_foldl_onPeerEvicted, hprefix] at hinfo
    exact absurd hgone hinfo.2
  have hreaders : Unmatched gone (p.evictExpired now).1 ↔ p.Unmatched gone := by
    unfold Unmatched
    rw [readers_evictExpired, config_evictExpired]
  rw [forgotten_iff, and_iff_left haddr, hreaders, ← unaccepted_iff]
  constructor
  · rintro ⟨hunaccepted, hunreg⟩
    exact ⟨hunaccepted, fun topic g hg => (hreg topic g hg).1 (hunreg topic g hg)⟩
  · rintro ⟨hunaccepted, hknown⟩
    exact ⟨hunaccepted, fun topic g hg => (hreg topic g hg).2 (hknown topic g hg)⟩

/-! ## Later turns -/

theorem sources_lateJoin (qos : QoS) (r : Reader) : (p.lateJoin qos r).1.sources = r.sources := by
  unfold lateJoin
  split_ifs
  · cases p.keptFor r.topic with
    | none => rfl
    | some kept =>
      show (handOver kept r).1.sources = _
      unfold handOver
      split_ifs <;> rfl
  · rfl

theorem sources_watchWriters (r : Reader) (now : Int) :
    (p.watchWriters r now).sources = r.sources := by
  unfold watchWriters
  split_ifs
  · refine List.foldlRecOn _ _ (motive := fun x : Reader => x.sources = r.sources) rfl ?_
    intro x hx w _
    split_ifs <;> exact hx
  · rfl

theorem sources_matchWriter (info : EndpointInfo) (now : Int) (r : Reader) :
    (matchWriter info now r).sources = insert info.guid r.sources := by
  unfold matchWriter
  split_ifs <;> rfl

theorem mem_sources_matched {cfg : ReaderConfig} (infos : List EndpointInfo) {r : Reader}
    (hr : r.config = cfg) : g ∈ (infos.foldl (fun r rw =>
        if rw.topicName = r.topic ∧ partitionsMatch rw.partitions r.partitions = true then
          matchWriter rw now r
        else r) r).sources ↔ g ∈ r.sources ∨ ∃ info ∈ infos, info.topicName = cfg.topic ∧
          partitionsMatch info.partitions cfg.partitions ∧ info.guid = g := by
  induction infos generalizing r with
  | nil => simp
  | cons info infos ih =>
    rw [foldl_cons, congrArg ReaderConfig.topic hr, congrArg ReaderConfig.partitions hr]
    simp only [mem_cons, exists_eq_or_imp]
    split_ifs with hfits
    · rw [ih ((config_matchWriter info now r).trans hr), sources_matchWriter,
        Finset.mem_insert, and_iff_right hfits.1, and_iff_right hfits.2, @eq_comm _ g info.guid,
        or_assoc, or_left_comm]
    · have hnot : ¬ (info.topicName = cfg.topic ∧
          partitionsMatch info.partitions cfg.partitions ∧ info.guid = g) :=
        fun h => hfits ⟨h.1, h.2.1⟩
      rw [ih hr, or_iff_right hnot]

theorem mem_sources_newReader {req : Request} :
    g ∈ (p.newReader req now).sources ↔ ∃ info ∈ p.sedp.remoteWriters.items,
      info.topicName = req.topic ∧ partitionsMatch info.partitions req.qos.partition = true ∧
        info.guid = g := by
  let cfg := p.readerConfig req.topic req.qos req.cfg req.contentFilter
  have hnew : g ∉ (p.watchWriters (Reader.new cfg) now).sources := by
    rw [sources_watchWriters]
    exact Finset.notMem_empty g
  unfold newReader matchWriters
  rw [sources_lateJoin]
  exact (mem_sources_matched p.sedp.remoteWriters.items
    (p.watchWriters_same (Reader.new cfg) now).1).trans (or_iff_right hnew)

def EntersNone (gone : GuidPrefix) (p : Participant) : Call → Prop
  | .newPublisher topic _ qos _ => p.AcceptsWriter topic → qos.ownership = .exclusive →
      gone ≠ p.guidPrefix
  | _ => True

def MatchesNone (gone : GuidPrefix) (p : Participant) (c : Call) : Prop :=
  ∀ req, request p.config c = some req → p.AcceptsReader req.topic →
    gone ≠ p.guidPrefix ∧ ∀ info ∈ p.sedp.remoteWriters.items, info.guid.guidPrefix = gone →
      ¬ (info.topicName = req.topic ∧ partitionsMatch info.partitions req.qos.partition = true)

/-- A turn brings nothing of the participant back: no exclusive or matching writer, no reader with
an address, no local reader matching a writer of it, no exclusive writer under its prefix. -/
def Spares (gone : GuidPrefix) (p : Participant) : Turn → Prop
  | .remoteWriter info _ _ => info.guid.guidPrefix = gone →
      info.ownershipExclusive = false ∧ ∀ r ∈ p.readers.items, r.eid ∉ p.matchedEIDs info
  | .remoteReader info dataLocator => info.guid.guidPrefix = gone →
      dataLocator.kind = locatorKindInvalid
  | .call c => p.EntersNone gone c ∧ p.MatchesNone gone c
  | _ => True

theorem unregistered_stable (cfg : ParticipantConfig) (gone : GuidPrefix) :
    Stable cfg (EntersNone gone) fun v => ∀ topic, ∀ g : GUID,
      g.guidPrefix = gone → ¬ Ownership.Registers v.ownership topic g where
  write _ _ _ _ _ _ _ h := h
  addWriter p topic typeName qos now hcfg hspares haccept h := by
    intro topic' g hg hreg
    rw [view_addWriter_ownership, registers_enter] at hreg
    rcases hreg with ⟨hexcl, -, rfl⟩ | hold
    · have hne := hspares haccept (of_decide_eq_true hexcl)
      rw [hcfg] at hne
      exact hne hg.symm
    · exact h topic' g hg hold
  addReader _ _ _ _ h := h
  closeWriter p w _ _ _ h := by
    intro topic g hg hreg
    rw [view_closeWriter_ownership, registers_leave] at hreg
    exact h topic g hg hreg.1
  unsubscribe _ _ h := h
  close _ h := h

theorem Unmatched.of_readersRel {R : Reader → Reader → Prop} (h : p.Unmatched gone)
    (hR : ∀ r r', R r r' → Reader.SameSources r r') (hrel : ReadersRel R p q)
    (hown : q.guidPrefix = p.guidPrefix) : q.Unmatched gone := by
  intro r' hr'
  obtain ⟨r, hr, hsame⟩ := hrel.mem hr'
  rw [hown, (hR r r' hsame).sources]
  exact h r hr

theorem unmatched_insert_iff (h : p.Unmatched gone) {r : Reader}
    (hreaders : q.readers = p.readers.insert r) (hown : q.guidPrefix = p.guidPrefix) :
    q.Unmatched gone ↔ gone ≠ p.guidPrefix ∧ ∀ g ∈ r.sources, g.guidPrefix ≠ gone := by
  unfold Unmatched
  rw [hreaders, hown]
  constructor
  · intro hq
    exact hq r (mem_insert.2 (.inl rfl))
  · intro hr r' hr'
    rcases mem_insert.1 hr' with rfl | ⟨hold, -⟩
    · exact hr
    · exact h r' hold

theorem unmatched_call_iff (h : p.Unmatched gone) (c : Call) :
    Unmatched gone (p.call c).1 ↔ p.MatchesNone gone c := by
  have hown : (p.call c).1.guidPrefix = p.guidPrefix :=
    congrArg guidPrefix (p.config_serve c)
  have hchange := p.readers_call c
  generalize (p.call c).1 = q at hchange hown
  cases hchange with
  | kept hrefuses hrel =>
    refine iff_of_true (h.of_readersRel (fun _ _ hr => hr.toSameSources) hrel hown) ?_
    exact fun req hreq haccept => absurd haccept (hrefuses req hreq)
  | created req hreq haccept hreaders =>
    rw [unmatched_insert_iff h hreaders hown]
    constructor
    · rintro ⟨hne, hsources⟩ req' hreq' -
      obtain rfl : req = req' := Option.some.inj (hreq.symm.trans hreq')
      exact ⟨hne, fun info hinfo hgone hfits => hsources info.guid
        (mem_sources_newReader.2 ⟨info, hinfo, hfits.1, hfits.2, rfl⟩) hgone⟩
    · intro hspares
      obtain ⟨hne, hnone⟩ := hspares req hreq haccept
      refine ⟨hne, fun g hg hgone => ?_⟩
      obtain ⟨info, hinfo, htopic, hpart, rfl⟩ := mem_sources_newReader.1 hg
      exact hnone info hinfo hgone ⟨htopic, hpart⟩
  | removed eid =>
    refine iff_of_true (fun r hr => h r (mem_of_mem_filter hr)) ?_
    rintro req ⟨⟩
  | polled eid order now hreaders =>
    have hrel : ReadersRel Reader.SameSources p q := by
      refine readersRel_of_map (fun _ _ hr => hr.eid) (fun r => ?_) (congrArg items hreaders)
      split_ifs
      · exact (Reader.sameMatch_checkLeases r now order).sameSources
      · exact .refl r
    refine iff_of_true (h.of_readersRel (fun _ _ hr => hr) hrel hown) ?_
    rintro req ⟨⟩

theorem unregistered_call_iff
    (h : ∀ topic, ∀ g : GUID, g.guidPrefix = gone → ¬ Ownership.Registers p.ownership topic g)
    (c : Call) : (∀ topic, ∀ g : GUID, g.guidPrefix = gone →
      ¬ Ownership.Registers (p.call c).1.ownership topic g) ↔ p.EntersNone gone c := by
  constructor
  · intro hcall
    cases c with
    | newPublisher topic typeName qos now =>
      rintro haccept hexcl rfl
      let w := p.writerConfig topic qos
      have hview : (p.serve (.newPublisher topic typeName qos now)).1.view =
          p.view.addWriter p.config w := by
        rw [serve_newPublisher haccept]
        exact view_addWriter p w typeName now
      have hown : (p.call (.newPublisher topic typeName qos now)).1.ownership =
          Ownership.enter p.ownership (publisher p.config w) :=
        (congrArg View.ownership hview).trans (view_addWriter_ownership _ _ w)
      refine hcall topic ⟨p.guidPrefix, w.eid⟩ rfl ?_
      rw [hown, registers_enter]
      exact .inl ⟨decide_eq_true hexcl, rfl, rfl⟩
    | _ => trivial
  · intro henters
    exact ((unregistered_stable p.config gone).serve henters ⟨rfl, h⟩).2

theorem forgotten_onRemoteWriter_iff (h : Forgotten gone p) (info : EndpointInfo) (l : Locator)
    (now : Int) :
    Forgotten gone (p.onRemoteWriter info l now) ↔ p.Spares gone (.remoteWriter info l now) := by
  obtain ⟨hsources, hreg, haddr⟩ := forgotten_iff.1 h
  rw [forgotten_iff, and_iff_left (show Unaddressed gone (p.onRemoteWriter info l now) from haddr),
    ownership_onRemoteWriter]
  simp only [registers_enter, not_or]
  constructor
  · rintro ⟨hsources', hreg'⟩ hgone
    refine ⟨?_, fun r hr hmatched => ?_⟩
    · by_contra hexcl
      have hexcl' : info.publisher.exclusive = true := Bool.eq_true_of_not_eq_false hexcl
      exact (hreg' info.topicName info.guid hgone).1 ⟨hexcl', rfl, rfl⟩
    · have hr' : matchWriter info now r ∈ (p.onRemoteWriter info l now).readers.items :=
        List.mem_map.2 ⟨r, hr, if_pos hmatched⟩
      refine (hsources' _ hr').2 info.guid ?_ hgone
      rw [sources_matchWriter]
      exact Finset.mem_insert_self _ _
  · intro hspares
    constructor
    · intro r' hr'
      obtain ⟨r, hr, rfl⟩ := List.mem_map.1 hr'
      obtain ⟨hne, hold⟩ := hsources r hr
      refine ⟨hne, fun g hg hgone => ?_⟩
      split_ifs at hg with hmatched
      · rw [sources_matchWriter, Finset.mem_insert] at hg
        rcases hg with rfl | hg
        · exact (hspares hgone).2 r hr hmatched
        · exact hold g hg hgone
      · exact hold g hg hgone
    · intro topic g hgone
      refine ⟨?_, hreg topic g hgone⟩
      rintro ⟨hexcl, -, rfl⟩
      have hshared : info.publisher.exclusive = false := (hspares hgone).1
      rw [hshared] at hexcl
      cases hexcl

theorem forgotten_onRemoteReader_iff (h : Forgotten gone p) (info : EndpointInfo) (l : Locator) :
    Forgotten gone (p.onRemoteReader info l) ↔ p.Spares gone (.remoteReader info l) := by
  obtain ⟨hsources, hreg, haddr⟩ := forgotten_iff.1 h
  have hiff : Unaddressed gone (p.onRemoteReader info l) ↔ p.Spares gone (.remoteReader info l) := by
    constructor
    · intro haddr' hgone
      exact haddr' info (mem_insert.2 (.inl rfl)) hgone l (Table.set_self _ _ _)
    · intro hspares info' hinfo' hgone loc hloc
      change p.sedp.remoteReaderLocs.set info.guid l info'.guid = some loc at hloc
      rcases mem_insert.1 hinfo' with rfl | ⟨hold, hne⟩
      · rw [Table.set_self] at hloc
        rw [← Option.some.inj hloc]
        exact hspares hgone
      · rw [Table.set_ne _ _ hne] at hloc
        exact haddr info' hold hgone loc hloc
  rw [forgotten_iff, hiff]
  exact ⟨fun h => h.2.2, fun hspares => ⟨hsources, hreg, hspares⟩⟩

theorem Forgotten.onPeerEvicted (h : Forgotten gone p) (evicted : GuidPrefix) :
    Forgotten gone (p.onPeerEvicted evicted) := by
  obtain ⟨hsources, hreg, haddr⟩ := forgotten_iff.1 h
  refine forgotten_iff.2 ⟨hsources, fun topic g hg hreg' => ?_, fun info hinfo hgone loc hloc => ?_⟩
  · exact hreg topic g hg (registers_onPeerEvicted_iff.1 hreg').1
  · refine haddr info (mem_of_mem_filter hinfo) hgone loc ?_
    change (if _ then none else p.sedp.remoteReaderLocs info.guid) = some loc at hloc
    split_ifs at hloc
    exact hloc

theorem Forgotten.of_same (h : Forgotten gone p) {R : Reader → Reader → Prop}
    (hR : ∀ r r', R r r' → Reader.SameSources r r') (hrel : ReadersRel R p q)
    (hown : q.guidPrefix = p.guidPrefix) (hsame : SameTables p q) : Forgotten gone q := by
  obtain ⟨hsources, hreg, haddr⟩ := forgotten_iff.1 h
  refine forgotten_iff.2 ⟨hsources.of_readersRel hR hrel hown, ?_, ?_⟩
  · have hownership : q.ownership = p.ownership := congrArg View.ownership hsame.view
    rw [hownership]
    exact hreg
  · unfold Unaddressed
    rw [hsame.sedp]
    exact haddr

theorem forgotten_turn_iff (h : Forgotten gone p) (t : Turn) :
    Forgotten gone (p.turn t).1 ↔ p.Spares gone t := by
  cases t with
  | call c =>
    obtain ⟨hsources, hreg, haddr⟩ := forgotten_iff.1 h
    have hremote := p.sameRemote_call c
    have haddr' : Unaddressed gone (p.call c).1 := by
      unfold Unaddressed
      rw [hremote.remoteReaders, hremote.remoteReaderLocs]
      exact haddr
    exact forgotten_iff.trans ((and_congr (unmatched_call_iff hsources c)
      ((and_iff_left haddr').trans (unregistered_call_iff hreg c))).trans and_comm)
  | act i =>
    refine iff_of_true ?_ trivial
    exact h.of_same (fun _ _ hr => hr.toSameSources) (p.heard_act i)
      (congrArg guidPrefix (p.config_act i)) (p.sameTables_act i)
  | peer proxy now =>
    refine iff_of_true ?_ trivial
    exact h.of_same (fun _ _ hr => hr)
      (readersRel_of_readers refl (p.readers_discoverPeer proxy now))
      (congrArg guidPrefix (p.config_turn (.peer proxy now)))
      (p.sameTables_discoverPeer proxy now)
  | remoteWriter info l now => exact forgotten_onRemoteWriter_iff h info l now
  | remoteReader info l => exact forgotten_onRemoteReader_iff h info l
  | announce =>
    refine iff_of_true ?_ trivial
    exact h.of_same (fun _ _ hr => hr) (readersRel_of_readers refl rfl) rfl
      ⟨rfl, rfl⟩
  | evict now =>
    refine iff_of_true (evictExpired_induction (J := Forgotten gone) ?_ ?_) trivial
    · exact h.of_same (fun _ _ hr => hr) (readersRel_of_readers refl rfl) rfl
        ⟨rfl, rfl⟩
    · exact fun q evicted hq => hq.onPeerEvicted evicted

/-- After an eviction, and for as long as one looks, no reader takes anything of the participant,
none of its writers is in the arbitration and none of its readers is sent to, exactly if that was so
of the readers before, the table of remote writers knew every registration of its writers, and no
later turn brings an endpoint of it back. -/
theorem eviction_complete_iff (cfg : ParticipantConfig) (antiReplay : Option ReplayGuard)
    (past future : List Turn) (gone : GuidPrefix) (now : Int) (hgone : gone ∈
      (Run.run turn (Participant.new cfg antiReplay) past).1.expiredPrefixes now) :
    let p := (run turn (Participant.new cfg antiReplay) past).1
    let q := (p.turn (.evict now)).1
    (∀ seen rest, future = seen ++ rest → Forgotten gone (run turn q seen).1) ↔
      p.Cleared gone ∧ Run.Along (fun _ s t => s.Spares gone t) turn [] q future := by
  intro p q
  have hq : Forgotten gone q ↔ p.Cleared gone := forgotten_evictExpired_iff hgone
  have hstates : Forgotten gone q →
      ((∀ seen rest, future = seen ++ rest → Forgotten gone (run turn q seen).1) ↔
        Run.Along (fun _ s t => s.Spares gone t) turn [] q future) := fun hfirst =>
    forall_states_iff_along (I := Forgotten gone) (D := fun _ _ _ => True)
      (fun _ _ _ hs _ => forgotten_turn_iff hs _) hfirst
      (along_of_forall (fun _ _ _ => trivial) _ _ _)
  rw [← hq]
  constructor
  · intro hall
    have hfirst : Forgotten gone q := hall [] future rfl
    exact ⟨hfirst, (hstates hfirst).1 hall⟩
  · rintro ⟨hfirst, halong⟩
    exact (hstates hfirst).2 halong

def evicted : GUID := ⟨copy 12 [2], copy 4 [1]⟩

/-- A reader of `a`, and a peer with an exclusive writer of the topic. -/
def acquaintance (topic : Str) : List Turn :=
  [.call (.newSubscriber (str "a") defaultTypeName defaultQoS .ofDefaults 0),
    .peer (.start evicted.guidPrefix) 0, .remoteWriter (exclusiveInfo evicted topic 1) zeroLocator 0]

theorem eviction_complete_unmatched :
    let p := Participant.new (.ofDefaults (copy 12 [1])) none
    let q := (run turn p (acquaintance (str "b"))).1
    ∀ seen rest, [Turn.announce] = seen ++ rest →
      Forgotten evicted.guidPrefix (run turn (q.turn (.evict (11 * second))).1 seen).1 := by
  intro p q
  refine (eviction_complete_iff _ none (acquaintance (str "b")) [.announce] evicted.guidPrefix
    (11 * second) (by decide +kernel)).2 ⟨⟨?_, ?_⟩, trivial, trivial⟩
  · rw [unaccepted_iff]
    unfold Unmatched
    decide +kernel
  · intro topic g' hg' hreg
    rcases (registers_enter (x := (exclusiveInfo evicted (str "b") 1).publisher)).1 hreg with
      ⟨-, rfl, rfl⟩ | hold
    · exact ⟨exclusiveInfo evicted (str "b") 1, get?_insert_self _ _, rfl, rfl⟩
    · exact absurd hold (not_registers_empty topic g')

theorem evicted_writer_still_accepted :
    let q := (run turn (Participant.new (.ofDefaults (copy 12 [1])) none)
      (acquaintance (str "a"))).1
    evicted.guidPrefix ∈ q.expiredPrefixes (11 * second) ∧
      ¬ Forgotten evicted.guidPrefix (q.turn (.evict (11 * second))).1 := by
  intro q
  refine ⟨by decide +kernel, fun h => ?_⟩
  have hsources : Unmatched evicted.guidPrefix (q.turn (.evict (11 * second))).1 :=
    unaccepted_iff.1 h.unaccepted
  revert hsources
  unfold Unmatched
  decide +kernel

end Participant

end GoDDS
