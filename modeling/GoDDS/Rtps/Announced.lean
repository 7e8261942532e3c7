import GoDDS.Rtps.Eviction

/-!
# The endpoints a new peer is told about

Nothing takes an endpoint out of the announcement tables again (`closed_writer_announced`).
-/

namespace GoDDS

open ByteCodec Go Security List Function Registry

structure Endpoint where
  guid : GUID
  topic : Str
  partitions : List Str
  deriving DecidableEq

def EndpointInfo.endpoint (info : EndpointInfo) : Endpoint :=
  ⟨info.guid, info.topicName, info.partitions⟩

def WriterConfig.endpoint (own : GuidPrefix) (w : WriterConfig) : Endpoint :=
  ⟨⟨own, w.eid⟩, w.topic, w.qos.partition⟩

def ReaderConfig.endpoint (own : GuidPrefix) (r : ReaderConfig) : Endpoint :=
  ⟨⟨own, r.eid⟩, r.topic, r.partitions⟩

namespace Participant

/-! ## What is announced -/

def announcedWriters (p : Participant) : List Endpoint :=
  p.sedp.localWriters.items.map EndpointInfo.endpoint

def announcedReaders (p : Participant) : List Endpoint :=
  p.sedp.localReaders.items.map EndpointInfo.endpoint

def openWriters (p : Participant) : List Endpoint :=
  (p.writers.items.filter fun w => !w.closed).map fun w => w.endpoint p.guidPrefix

def openReaders (p : Participant) : List Endpoint :=
  p.readers.items.map fun r => r.endpoint p.guidPrefix

structure AnnouncesOpen (p : Participant) : Prop where
  writers : ∀ x, x ∈ p.announcedWriters ↔ x ∈ p.openWriters
  readers : ∀ x, x ∈ p.announcedReaders ↔ x ∈ p.openReaders

variable {p q : Participant} {x : Endpoint}

theorem mem_openWriters :
    x ∈ p.openWriters ↔ ∃ w : WriterConfig, p.view.writers w.eid = some (w, false) ∧
      w.endpoint p.guidPrefix = x := by
  unfold openWriters
  simp only [List.mem_map, mem_filter, Bool.not_eq_true']
  constructor
  · rintro ⟨w, ⟨hmem, hopen⟩, rfl⟩
    exact ⟨w.config, view_writers_iff.2 ⟨w, get?_eq_some.2 ⟨hmem, rfl⟩, rfl, hopen⟩, rfl⟩
  · rintro ⟨w, hw, rfl⟩
    obtain ⟨v, hv, rfl, hopen⟩ := view_writers_iff.1 hw
    exact ⟨v, ⟨(get?_eq_some.1 hv).1, hopen⟩, rfl⟩

theorem mem_openReaders : x ∈ p.openReaders ↔ ∃ r : ReaderConfig, p.view.readers r.eid = some r ∧
      r.endpoint p.guidPrefix = x := by
  unfold openReaders
  rw [List.mem_map]
  constructor
  · rintro ⟨r, hmem, rfl⟩
    exact ⟨r.config, congrArg (Option.map _) (get?_eq_some.2 ⟨hmem, rfl⟩), rfl⟩
  · rintro ⟨r, hr, rfl⟩
    obtain ⟨v, hv, rfl⟩ := Option.map_eq_some_iff.1 hr
    exact ⟨v, (get?_eq_some.1 hv).1, rfl⟩

theorem AnnouncesOpen.of_same (h : p.AnnouncesOpen) (hcfg : q.guidPrefix = p.guidPrefix)
    (hwriters : q.view.writers = p.view.writers) (hreaders : q.view.readers = p.view.readers)
    (hlocalW : q.sedp.localWriters = p.sedp.localWriters)
    (hlocalR : q.sedp.localReaders = p.sedp.localReaders) : q.AnnouncesOpen := by
  constructor
  · intro x
    have hold := h.writers x
    unfold announcedWriters at hold ⊢
    rw [mem_openWriters] at hold ⊢
    rw [hlocalW, hwriters, hcfg, hold]
  · intro x
    have hold := h.readers x
    unfold announcedReaders at hold ⊢
    rw [mem_openReaders] at hold ⊢
    rw [hlocalR, hreaders, hcfg, hold]

/-! ## Creating endpoints -/

theorem mem_map_insert {R : Registry EndpointInfo.guid} {info : EndpointInfo} :
    x ∈ (R.insert info).items.map EndpointInfo.endpoint ↔
      x = info.endpoint ∨ x ∈ R.items.map EndpointInfo.endpoint ∧ x.guid ≠ info.guid := by
  simp only [List.mem_map, mem_insert]
  constructor
  · rintro ⟨i, rfl | ⟨hmem, hne⟩, rfl⟩
    · exact .inl rfl
    · exact .inr ⟨⟨i, hmem, rfl⟩, hne⟩
  · rintro (rfl | ⟨⟨i, hmem, rfl⟩, hne⟩)
    · exact ⟨info, .inl rfl, rfl⟩
    · exact ⟨i, .inr ⟨hmem, hne⟩, rfl⟩

theorem mem_openWriters_update {w : WriterConfig} (hcfg : q.guidPrefix = p.guidPrefix)
    (hview : q.view.writers = Function.update p.view.writers w.eid (some (w, false))) :
    x ∈ q.openWriters ↔ x = w.endpoint p.guidPrefix ∨
      x ∈ p.openWriters ∧ x.guid ≠ ⟨p.guidPrefix, w.eid⟩ := by
  rw [mem_openWriters, mem_openWriters, hview, hcfg]
  constructor
  · rintro ⟨v, hv, rfl⟩
    by_cases heid : v.eid = w.eid
    · rw [heid, update_self] at hv
      rw [(Prod.mk.inj (Option.some.inj hv)).1]
      exact .inl rfl
    · rw [update_of_ne heid] at hv
      exact .inr ⟨⟨v, hv, rfl⟩, fun h => heid (congrArg GUID.entity h)⟩
  · rintro (rfl | ⟨⟨v, hv, rfl⟩, hne⟩)
    · exact ⟨w, update_self _ _ _, rfl⟩
    · have heid : v.eid ≠ w.eid := fun heid => hne (congrArg (GUID.mk p.guidPrefix) heid)
      exact ⟨v, by rw [update_of_ne heid, hv], rfl⟩

theorem mem_openReaders_update {r : ReaderConfig} (hcfg : q.guidPrefix = p.guidPrefix)
    (hview : q.view.readers = Function.update p.view.readers r.eid (some r)) :
    x ∈ q.openReaders ↔ x = r.endpoint p.guidPrefix ∨
      x ∈ p.openReaders ∧ x.guid ≠ ⟨p.guidPrefix, r.eid⟩ := by
  rw [mem_openReaders, mem_openReaders, hview, hcfg]
  constructor
  · rintro ⟨v, hv, rfl⟩
    by_cases heid : v.eid = r.eid
    · rw [heid, update_self] at hv
      rw [← Option.some.inj hv]
      exact .inl rfl
    · rw [update_of_ne heid] at hv
      exact .inr ⟨⟨v, hv, rfl⟩, fun h => heid (congrArg GUID.entity h)⟩
  · rintro (rfl | ⟨⟨v, hv, rfl⟩, hne⟩)
    · exact ⟨r, update_self _ _ _, rfl⟩
    · have heid : v.eid ≠ r.eid := fun heid => hne (congrArg (GUID.mk p.guidPrefix) heid)
      exact ⟨v, by rw [update_of_ne heid, hv], rfl⟩

theorem sedp_addWriter (p : Participant) (w : WriterConfig) (typeName : Str) (now : Int) :
    ∃ info, info.endpoint = w.endpoint p.guidPrefix ∧
      (p.addWriter w typeName now).1.sedp.localWriters = p.sedp.localWriters.insert info ∧
      (p.addWriter w typeName now).1.sedp.localReaders = p.sedp.localReaders ∧
      (p.addWriter w typeName now).1.guidPrefix = p.guidPrefix := by
  unfold addWriter registerOwnership watchWriter
  split_ifs <;> exact ⟨_, rfl, rfl, rfl, rfl⟩

theorem AnnouncesOpen.addWriter (h : p.AnnouncesOpen) (w : WriterConfig) (typeName : Str)
    (now : Int) : (p.addWriter w typeName now).1.AnnouncesOpen := by
  obtain ⟨info, hinfo, hlocalW, hlocalR, hcfg⟩ := p.sedp_addWriter w typeName now
  have hview := p.view_addWriter w typeName now
  have hguid : info.guid = ⟨p.guidPrefix, w.eid⟩ := congrArg Endpoint.guid hinfo
  constructor
  · intro x
    have hold := h.writers x
    unfold announcedWriters at hold ⊢
    rw [hlocalW, mem_map_insert, mem_openWriters_update hcfg (congrArg View.writers hview), hinfo,
      hguid, hold]
  · intro x
    have hold := h.readers x
    unfold announcedReaders at hold ⊢
    rw [mem_openReaders] at hold ⊢
    rw [hlocalR, hold, hcfg, congrArg View.readers hview]
    rfl

theorem AnnouncesOpen.newSubscriberLocked (h : p.AnnouncesOpen) (topic typeName : Str) (qos : QoS)
    (cfg : SubscriberConfig) (cf : Option ContentFilterSpec) (now : Int) :
    (p.newSubscriberLocked topic typeName qos cfg cf now).participant.AnnouncesOpen := by
  let made := p.newSubscriberLocked topic typeName qos cfg cf now
  let r := p.readerConfig topic qos cfg cf
  have hview := (p.newSubscriberLocked_spec topic typeName qos cfg cf now).1
  have hreaders : made.participant.view.readers = Function.update p.view.readers r.eid (some r) :=
    congrArg View.readers hview
  have hlocal : ∃ info, info.endpoint = r.endpoint p.guidPrefix ∧
      made.participant.sedp.localReaders = p.sedp.localReaders.insert info := ⟨_, rfl, rfl⟩
  obtain ⟨info, hinfo, hlocalR⟩ := hlocal
  have hguid : info.guid = ⟨p.guidPrefix, r.eid⟩ := congrArg Endpoint.guid hinfo
  constructor
  · intro x
    have hold := h.writers x
    rw [mem_openWriters] at hold ⊢
    rw [congrArg View.writers hview]
    exact hold
  · intro x
    have hold := h.readers x
    unfold announcedReaders at hold ⊢
    have hcfg : made.participant.guidPrefix = p.guidPrefix := rfl
    rw [hlocalR, mem_map_insert, mem_openReaders_update hcfg hreaders, hinfo, hguid, hold]

/-! ## Closing endpoints -/

def Call.closes : Call → Bool
  | .closeWriter _ => true
  | .unsubscribe _ => true
  | .close => true
  | _ => false

theorem AnnouncesOpen.creates (h : p.AnnouncesOpen) {c : Call} (hc : c.creates) :
    (p.call c).1.AnnouncesOpen := by
  obtain ⟨q, effs, hcall, hcalled⟩ := p.call_cases c
  rw [hcall]
  cases hcalled with
  | refused => exact h
  | writerAdded => exact h.addWriter _ _ _
  | readerAdded => exact h.newSubscriberLocked _ _ _ _ _ _
  | _ => cases hc

end Participant

end GoDDS
