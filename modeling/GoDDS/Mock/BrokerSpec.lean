import GoDDS.Arbitration
import GoDDS.Mock.Broker

/-!
# What a call on the mock backend can do
-/

namespace GoDDS.Mock

open ByteCodec Go Registry Option Subscription Broker Ownership PublisherConfig

variable {c : Call} {m m' : Process} {pub : Publisher}

namespace Process

/-! ## Open publishers -/

theorem mem_openPublishers {x : GoDDS.Publisher} : x ∈ m.openPublishers ↔
      ∃ pub : Publisher, m.publishers.get? pub.guid = some pub ∧ pub.closed = false ∧
        x = pub.seen := by
  simp only [openPublishers, List.mem_toFinset, List.mem_map, List.mem_filter]
  constructor
  · rintro ⟨pub, ⟨hmem, hopen⟩, rfl⟩
    exact ⟨pub, get?_eq_some.2 ⟨hmem, rfl⟩, by simpa using hopen, rfl⟩
  · rintro ⟨pub, hget, hopen, rfl⟩
    exact ⟨pub, ⟨(get?_eq_some.1 hget).1, by simp [hopen]⟩, rfl⟩

theorem distinct_openPublishers (m : Process) : Ownership.Distinct m.openPublishers := by
  intro x hx y hy hguid
  obtain ⟨pub, hget, -, rfl⟩ := mem_openPublishers.1 hx
  obtain ⟨pub', hget', -, rfl⟩ := mem_openPublishers.1 hy
  have hsame : pub.guid = pub'.guid := hguid
  rw [hsame, hget'] at hget
  rw [some.inj hget]

theorem openPublishers_add (hopen : pub.closed = false)
    (hfresh : ∀ old, m.publishers.get? pub.guid = some old → old.closed)
    (hm : m'.publishers = m.publishers.insert pub) :
    m'.openPublishers = insert pub.seen m.openPublishers := by
  ext x
  have hget := get?_insert m.publishers pub
  rw [Finset.mem_insert, mem_openPublishers, mem_openPublishers, hm]
  constructor
  · rintro ⟨pub', hpub', hopen', rfl⟩
    rw [hget] at hpub'
    split_ifs at hpub' with hguid
    · exact .inl (by rw [some.inj hpub'])
    · exact .inr ⟨pub', hpub', hopen', rfl⟩
  · rintro (rfl | ⟨pub', hpub', hopen', rfl⟩)
    · exact ⟨pub, (hget _).trans (if_pos rfl), hopen, rfl⟩
    · refine ⟨pub', (hget _).trans ((if_neg fun hguid => ?_).trans hpub'), hopen', rfl⟩
      rw [hguid] at hpub'
      rw [hfresh pub' hpub'] at hopen'
      cases hopen'

theorem openPublishers_close (pub : Publisher) (hclosed : pub.closed)
    (hm : m'.publishers = m.publishers.insert pub) :
    m'.openPublishers = m.openPublishers.filter fun x => x.guid ≠ pub.guid := by
  ext x
  have hget := get?_insert m.publishers pub
  rw [Finset.mem_filter, mem_openPublishers, mem_openPublishers, hm]
  constructor
  · rintro ⟨pub', hpub', hopen', rfl⟩
    rw [hget] at hpub'
    split_ifs at hpub' with hguid
    · rw [← some.inj hpub', hclosed] at hopen'
      cases hopen'
    · exact ⟨⟨pub', hpub', hopen', rfl⟩, hguid⟩
  · rintro ⟨⟨pub', hpub', hopen', rfl⟩, hguid⟩
    exact ⟨pub', (hget _).trans ((if_neg hguid).trans hpub'), hopen', rfl⟩

theorem openPublishers_same (pub' : Publisher) (hget : m.publishers.get? pub.guid = some pub)
    (hcfg : pub'.config = pub.config) (hclosed : pub'.closed = pub.closed)
    (hm : m'.publishers = m.publishers.insert pub') : m'.openPublishers = m.openPublishers := by
  ext x
  have hset := get?_insert m.publishers pub'
  have hguid : pub'.guid = pub.guid := congrArg guid hcfg
  rw [mem_openPublishers, mem_openPublishers, hm]
  constructor
  · rintro ⟨y, hy, hopen, rfl⟩
    rw [hset] at hy
    split_ifs at hy with h
    · obtain rfl := some.inj hy
      refine ⟨pub, hget, hclosed.symm.trans hopen, ?_⟩
      rw [hcfg]
    · exact ⟨y, hy, hopen, rfl⟩
  · rintro ⟨y, hy, hopen, rfl⟩
    by_cases h : y.guid = pub'.guid
    · rw [h, hguid, hget] at hy
      obtain rfl := some.inj hy
      refine ⟨pub', (hset _).trans (if_pos rfl), hclosed.trans hopen, ?_⟩
      rw [hcfg]
    · exact ⟨y, (hset _).trans ((if_neg h).trans hy), hopen, rfl⟩

theorem partitions_of_offer {s : Subscription} {partitions : List Str} {sample : Sample} {now : Int}
    (h : (s.offer partitions sample now).2) : partitionsMatch partitions s.partitions := by
  by_contra hpart
  rw [offer, if_pos (by simpa using hpart)] at h
  cases h

theorem prepare_same (b : Broker) (qos : QoS) (sample : Sample) (origin : Publication) (now : Int) :
    ((b.touchWriter sample.topic qos sample.writerGUID now).keepSample qos sample origin).subs =
        b.subs ∧ ((b.touchWriter sample.topic qos sample.writerGUID now).keepSample qos sample
        origin).ownership = b.ownership := by
  unfold keepSample touchWriter
  split_ifs <;> exact ⟨rfl, rfl⟩

theorem publish_ownership (b : Broker) (qos : QoS) (sample : Sample) (origin : Publication)
    (now : Int) : (b.publish qos sample origin now).1.ownership = b.ownership := by
  have hsame := (prepare_same b qos sample origin now).2
  unfold publish
  dsimp only
  split_ifs
  · exact hsame
  · exact hsame

theorem publish_outputs {b : Broker} {qos : QoS} {sample : Sample} {origin : Publication}
    {now : Int} {o : Output} (h : o ∈ (b.publish qos sample origin now).2) :
    b.ownershipAllows sample.topic sample.writerGUID ∧
      ∃ s ∈ b.subs.items, hears s.config sample.topic ∧
        (s.offer qos.partition sample now).2 = true ∧
        o = .delivered s.id ⟨origin, s.topic, s.partitions⟩ sample := by
  obtain ⟨hsubs, hown⟩ := prepare_same b qos sample origin now
  unfold publish at h
  dsimp only at h
  split_ifs at h with hallow
  · cases h
  · refine ⟨?_, ?_⟩
    · unfold ownershipAllows at hallow ⊢
      rw [hown] at hallow
      simpa using hallow
    · unfold offerAll at h
      obtain ⟨s, hs, ho⟩ := List.mem_filterMap.1 h
      split_ifs at ho with hcond
      rw [Bool.and_eq_true] at hcond
      exact ⟨s, hsubs ▸ hs, hcond.1, hcond.2, (some.inj ho).symm⟩

/-! ## Calls -/

structure Request where
  topic : Str
  qos : QoS
  cfg : SubscriberConfig
  contentFilter : Option (Bytes → Bool)

def request (m : Process) : Call → Option Request
  | .newSubscriber participant topic qos cfg =>
    if topic ≠ [] ∧ m.isOpen participant = true then some ⟨topic, qos, cfg, none⟩ else none
  | .newFilteredSubscriber participant topic expr params qos cfg =>
    if topic ≠ [] ∧ m.isOpen participant = true then
      (m.filterParse expr params).map fun cf => ⟨topic, qos, cfg, some cf⟩
    else none
  | _ => none

def Request.config (m : Process) (req : Request) : SubscriptionConfig :=
  Broker.subscriptionConfig (m.subscribers + 1) req.topic req.qos req.cfg req.contentFilter

def joinDeliveries (m : Process) (req : Request) : List Delivery :=
  match m.lastFor req.topic req.qos with
  | none => []
  | some kept =>
    if Subscription.passesFilters (req.config m) kept.sample then
      [⟨kept.origin, req.topic, req.qos.partition⟩]
    else []

theorem mem_joinDeliveries {req : Request} {d : Delivery} :
    d ∈ m.joinDeliveries req ↔ ∃ kept, m.lastFor req.topic req.qos = some kept ∧
      passesFilters (req.config m) kept.sample ∧
      d = ⟨kept.origin, req.topic, req.qos.partition⟩ := by
  unfold joinDeliveries
  cases m.lastFor req.topic req.qos with
  | none => simp
  | some kept =>
    by_cases hpass : passesFilters (req.config m) kept.sample
    all_goals simp [hpass]

inductive Change (m : Process) : Call → Process → List Delivery → Prop
  | quiet {c : Call} {m' : Process} (hopened : m'.openPublishers = m.openPublishers)
      (hown : m'.ownership = m.ownership) : Change m c m' []
  | published {m' : Process} {ds : List Delivery} {pub : Publisher} {payload : Bytes} {now : Int}
      (hget : m.publishers.get? pub.guid = some pub) (hopen : pub.closed = false)
      (hopened : m'.openPublishers = m.openPublishers) (hown : m'.ownership = m.ownership)
      (hds : ∀ d ∈ ds, m.ownershipAllows pub.topic pub.guid = true ∧
        partitionsMatch pub.qos.partition d.partitions = true ∧
        d.origin = m.publication pub.config) :
      Change m (.write pub.guid payload now) m' ds
  | publisherAdded {m' : Process} {participant : GUID} {topic : Str} {qos : QoS} {now : Int}
      (pub : Publisher) (hguid : pub.guid = m.nextGUID now) (hopen : pub.closed = false)
      (hpubs : m'.publishers = m.publishers.insert pub)
      (hown : m'.ownership = Ownership.enter m.ownership pub.seen) :
      Change m (.newPublisher participant topic qos now) m' []
  | subscriberAdded {c : Call} {m' : Process} (req : Request) (hreq : m.request c = some req)
      (hopened : m'.openPublishers = m.openPublishers) (hown : m'.ownership = m.ownership) :
      Change m c m' (m.joinDeliveries req)
  | publisherClosed {m' : Process} {pub : Publisher}
      (hget : m.publishers.get? pub.guid = some pub)
      (hpubs : m'.publishers = m.publishers.insert { pub with closed := true })
      (hown : m'.ownership = Ownership.leave m.ownership pub.seen) :
      Change m (.closePublisher pub.guid) m' []

theorem change_write (hget : m.publishers.get? pub.guid = some pub) (payload : Bytes) (now : Int) :
    Change m (.write pub.guid payload now) (m.write pub payload now).process
      ((m.write pub payload now).outputs.filterMap deliveryOf) := by
  unfold write
  dsimp only
  split_ifs with hclosed hlarge
  · exact .quiet rfl rfl
  · exact .quiet rfl rfl
  · let pub₁ := { pub with seqNum := pub.seqNum + 1 }
    have hopened : (m.setPublisher pub₁).openPublishers = m.openPublishers :=
      openPublishers_same pub₁ hget rfl rfl rfl
    refine .published hget (by simpa using hclosed) hopened (publish_ownership _ _ _ _ _) ?_
    intro d hd
    obtain ⟨o, ho, hod⟩ := List.mem_filterMap.1 hd
    obtain ⟨hallow, s, -, -, hoffer, rfl⟩ := publish_outputs ho
    obtain rfl := some.inj hod
    refine ⟨hallow, partitions_of_offer hoffer, ?_⟩
    show Publication.mk _ (m.setPublisher pub₁).openPublishers = _
    rw [hopened]
    rfl

theorem handOver_outputs (last : Option Kept) (s : SubscriptionConfig) :
    (Broker.handOver last (Subscription.new s)).2.filterMap deliveryOf = match last with
      | none => []
      | some kept =>
        if passesFilters s kept.sample then [⟨kept.origin, s.topic, s.partitions⟩]
        else [] := by
  cases last with
  | none => rfl
  | some kept =>
    unfold handOver
    dsimp only
    have hroom : (Subscription.new s).ch.length < (Subscription.new s).depth := s.depth_pos
    have hcfg : (Subscription.new s).config = s := rfl
    rw [if_pos hroom, hcfg]
    by_cases hpass : passesFilters s kept.sample
    · rw [if_pos hpass, if_neg (by simp [hpass])]
      rfl
    · rw [if_neg hpass, if_pos (by simpa using hpass)]
      rfl

theorem change_newSubscriberLocked (req : Request) (hreq : m.request c = some req) :
    Change m c (m.newSubscriberLocked req.topic req.qos req.cfg req.contentFilter).1
      ((m.newSubscriberLocked req.topic req.qos req.cfg req.contentFilter).2.filterMap
        deliveryOf) := by
  have hds : (m.newSubscriberLocked req.topic req.qos req.cfg req.contentFilter).2.filterMap
      deliveryOf = m.joinDeliveries req := handOver_outputs _ (req.config m)
  rw [hds]
  refine .subscriberAdded req hreq rfl ?_
  unfold newSubscriberLocked
  split_ifs <;> rfl

theorem registerOwnership_eq (m : Process) (pub : PublisherConfig) :
    (m.registerOwnership pub).ownership = enter m.ownership pub.seen := by
  unfold registerOwnership enter seen
  simp only [decide_eq_true_eq]
  split_ifs <;> rfl

theorem unregisterOwnership_eq (pub : PublisherConfig) :
    (m.unregisterOwnership pub).ownership = leave m.ownership pub.seen := by
  unfold unregisterOwnership leave seen
  simp only [decide_eq_true_eq]
  split_ifs <;> rfl

theorem updateLease_same (m : Process) (pub : PublisherConfig)
    (f : TopicLiveliness → TopicLiveliness) : (m.updateLease pub f).publishers = m.publishers ∧
      (m.updateLease pub f).ownership = m.ownership := by
  unfold updateLease
  split_ifs <;> exact ⟨rfl, rfl⟩

theorem openPublishers_congr (h : m'.publishers = m.publishers) :
    m'.openPublishers = m.openPublishers := by
  unfold openPublishers
  rw [h]

theorem change_newPublisher (m : Process) (participant : GUID) (topic : Str) (qos : QoS)
    (now : Int) : Change m (.newPublisher participant topic qos now)
      (m.newPublisher participant topic qos now).1 [] := by
  unfold newPublisher
  split_ifs
  · exact .quiet rfl rfl
  · exact .quiet rfl rfl
  · let pub : Publisher := ⟨⟨m.nextGUID now, topic, qos⟩, false, 0⟩
    obtain ⟨hpubs, hown⟩ := updateLease_same
      ((m.takeGUID.setPublisher pub).registerOwnership pub.config)
      pub.config fun t => t.registerWriter pub.guid qos.livelinessLeaseDuration now
    refine .publisherAdded pub rfl rfl (hpubs.trans ?_) (hown.trans ?_)
    · unfold registerOwnership
      split_ifs <;> rfl
    · exact registerOwnership_eq _ _

theorem change_closePublisher (m : Process) (guid : GUID) :
    Change m (.closePublisher guid) (m.closePublisher guid) [] := by
  unfold closePublisher
  cases hget : m.publishers.get? guid with
  | none => exact .quiet rfl rfl
  | some pub =>
    obtain rfl : pub.guid = guid := (get?_eq_some.1 hget).2
    obtain ⟨hpubs, hown⟩ := updateLease_same m pub.config fun t =>
      t.unregisterWriter pub.guid
    refine .publisherClosed hget ?_ ?_
    · dsimp only
      unfold setPublisher unregisterOwnership
      split_ifs
      all_goals exact congrArg (Registry.insert · _) hpubs
    · refine (unregisterOwnership_eq _).trans ?_
      rw [hown]

/-- A call leaves the open publishers and the arbitration alone, or it adds a publisher to both, or
it removes one from both. The samples it delivers are those of a write past all checks, or the one
sample kept for a new subscriber. -/
theorem serve_change (m : Process) (c : Call) : Change m c (m.serve c).1 (m.serve c).2 := by
  unfold serve call
  cases c with
  | newParticipant domain now =>
    dsimp only
    unfold newParticipant
    split_ifs <;> exact .quiet rfl rfl
  | newPublisher participant topic qos now => exact m.change_newPublisher participant topic qos now
  | newSubscriber participant topic qos cfg =>
    dsimp only
    unfold newSubscriber
    split_ifs with htopic hclosed
    · exact .quiet rfl rfl
    · exact .quiet rfl rfl
    · refine change_newSubscriberLocked ⟨topic, qos, cfg, none⟩ (if_pos ⟨htopic, ?_⟩)
      simpa using hclosed
  | newFilteredSubscriber participant topic expr params qos cfg =>
    dsimp only
    unfold newFilteredSubscriber
    cases hparse : m.filterParse expr params with
    | none =>
      dsimp only
      split_ifs <;> exact .quiet rfl rfl
    | some cf =>
      split_ifs with htopic hclosed
      · exact .quiet rfl rfl
      · exact .quiet rfl rfl
      · refine change_newSubscriberLocked ⟨topic, qos, cfg, some cf⟩ ?_
        have hopen : m.isOpen participant = true := by simpa using hclosed
        exact (if_pos ⟨htopic, hopen⟩).trans (congrArg (Option.map _) hparse)
  | write guid payload now =>
    dsimp only
    cases hget : m.publishers.get? guid with
    | none => exact .quiet rfl rfl
    | some pub =>
      obtain rfl : pub.guid = guid := (get?_eq_some.1 hget).2
      exact change_write hget payload now
  | closePublisher guid => exact m.change_closePublisher guid
  | unsubscribe id =>
    dsimp only
    unfold unsubscribe
    cases m.subs.get? id <;> exact .quiet rfl rfl
  | closeParticipant participant =>
    dsimp only
    unfold closeParticipant
    cases m.participants participant <;> exact .quiet rfl rfl
  | assertLiveliness guid now =>
    dsimp only
    unfold assertLiveliness
    cases m.publishers.get? guid with
    | none => exact .quiet rfl rfl
    | some pub =>
      dsimp only
      split_ifs
      · exact .quiet rfl rfl
      · obtain ⟨hpubs, hown⟩ := updateLease_same m pub.config fun t =>
          t.touch pub.guid now
        exact .quiet (openPublishers_congr hpubs) hown
      · exact .quiet rfl rfl
  | check topic order now =>
    have hnone : (m.check topic order now).2.filterMap deliveryOf = [] := by
      refine List.filterMap_eq_nil_iff.2 fun o ho => ?_
      obtain ⟨g, -, hg⟩ := List.mem_flatMap.1 ho
      obtain ⟨sub, -, rfl⟩ := List.mem_map.1 hg
      rfl
    dsimp only
    rw [hnone]
    exact .quiet rfl rfl
  | _ => exact .quiet rfl rfl

theorem serve_request {req : Request} (hreq : m.request c = some req) :
    (m.serve c).2 = m.joinDeliveries req := by
  have hds : (m.newSubscriberLocked req.topic req.qos req.cfg req.contentFilter).2.filterMap
      deliveryOf = m.joinDeliveries req := handOver_outputs _ (req.config m)
  cases c with
  | newSubscriber participant topic qos cfg =>
    unfold request at hreq
    dsimp only at hreq
    split_ifs at hreq with haccept
    obtain rfl := some.inj hreq
    unfold serve call newSubscriber
    dsimp only
    rw [if_neg haccept.1, if_neg (by simp [haccept.2])]
    exact hds
  | newFilteredSubscriber participant topic expr params qos cfg =>
    unfold request at hreq
    dsimp only at hreq
    split_ifs at hreq with haccept
    obtain ⟨cf, hparse, rfl⟩ := map_eq_some_iff.1 hreq
    unfold serve call newFilteredSubscriber
    dsimp only
    rw [if_neg haccept.1, hparse]
    dsimp only
    rw [if_neg (by simp [haccept.2])]
    exact hds
  | _ => cases hreq

def FreshIds (m : Process) : Call → Prop
  | .newPublisher _ _ _ now =>
    ∀ pub, m.publishers.get? (m.nextGUID now) = some pub → pub.closed = true
  | _ => True

instance (m : Process) (c : Call) : Decidable (m.FreshIds c) := by
  cases c <;> first
    | exact isTrue trivial
    | exact inferInstanceAs (Decidable (∀ pub ∈ m.publishers.get? _, pub.closed = true))

def Tracked (m : Process) : Prop := Ownership.Arbitrates m.ownership m.openPublishers

theorem tracked_new (filterParse : Str → List Str → Option (Bytes → Bool)) :
    (Process.new filterParse).Tracked := arbitrates_empty

theorem Tracked.serve (h : m.Tracked) (hfresh : m.FreshIds c) : (m.serve c).1.Tracked := by
  unfold Tracked at *
  have hchange := m.serve_change c
  generalize (m.serve c).1 = m' at hchange ⊢
  generalize (m.serve c).2 = ds at hchange
  cases hchange with
  | quiet hopened hown =>
    rw [hopened, hown]
    exact h
  | published hget hopen hopened hown hds =>
    rw [hopened, hown]
    exact h
  | subscriberAdded req hreq hopened hown =>
    rw [hopened, hown]
    exact h
  | publisherAdded pub hguid hopen hpubs hown =>
    have hfree : ∀ old, m.publishers.get? pub.guid = some old → old.closed := by
      rw [hguid]
      exact hfresh
    rw [openPublishers_add hopen hfree hpubs, hown]
    refine h.enter fun y hy hy' => ?_
    obtain ⟨old, hold, hopen', rfl⟩ := mem_openPublishers.1 hy
    have hsame : old.guid = pub.guid := hy'
    rw [hsame] at hold
    rw [hfree old hold] at hopen'
    cases hopen'
  | @publisherClosed m' pub hget hpubs hown =>
    rw [openPublishers_close { pub with closed := true } rfl hpubs, hown]
    refine h.leave fun y hy hy' => ?_
    obtain ⟨old, hold, -, rfl⟩ := mem_openPublishers.1 hy
    have hsame : old.guid = pub.guid := hy'
    rw [hsame, hget] at hold
    rw [some.inj hold]

/-- In a run in which no publisher gets the identifier of one that is still open, the arbitration
lets through exactly the publishers in charge. -/
theorem ownershipAllows_iff (h : m.Tracked) (hget : m.publishers.get? pub.guid = some pub)
    (hopen : pub.closed = false) : m.ownershipAllows pub.topic pub.guid ↔
      (m.publication pub.config).InCharge :=
  h.allows_iff m.distinct_openPublishers (mem_openPublishers.2 ⟨pub, hget, hopen, rfl⟩)

end Process

end GoDDS.Mock
