import GoDDS.Mock.BrokerSpec
import GoDDS.Rtps.Arrival
import GoDDS.Rtps.OwnershipTable

/-!
# Failover of exclusive ownership

The arbitration is not told of an expired lease: a lost writer stays registered until it is closed
or evicted.
-/

namespace GoDDS

open ByteCodec Go Security Option Registry Ownership Mock.Process FixedBytes OwnershipState

/-- The reader has been told that the writer is lost, and has not heard of it since. -/
def Reader.Lost (r : Reader) (g : GUID) : Prop := r.livelinessFired g = some true
  deriving Decidable

/-! ## The mock backend -/

namespace Mock

@[mk_iff]
structure Subscription.Willing (s : Subscription) (sample : Sample) (now : Int) : Prop where
  separated : 0 < s.minSeparation → ∀ last ∈ s.tbf sample.writerGUID, s.minSeparation ≤ now - last
  passes : Subscription.passesFilters s.config sample = true
  room : s.ch.length < s.depth

instance (s : Subscription) (sample : Sample) (now : Int) : Decidable (s.Willing sample now) :=
  decidable_of_iff _ (s.willing_iff sample now).symm

open Subscription

theorem Subscription.deliver_of_room {s : Subscription} (h : s.ch.length < s.depth)
    (sample : Sample) : (s.deliver sample).2 := by
  unfold deliver
  cases s.backPressure <;> simp [h]

theorem Subscription.offer_of_willing {s : Subscription} {sample : Sample} {now : Int}
    (h : s.Willing sample now) {partitions : List Str}
    (hpart : partitionsMatch partitions s.partitions) : (s.offer partitions sample now).2 := by
  have hch : (s.passes sample.writerGUID now).1.ch = s.ch := by
    unfold passes
    split_ifs <;> rfl
  have hpass : (s.passes sample.writerGUID now).2 := by
    unfold passes
    split_ifs with hsep hearly
    · rfl
    · cases hlast : s.tbf sample.writerGUID with
      | none => simp [hlast] at hearly
      | some last =>
        have hlate := h.separated (by omega) last hlast
        simp only [hlast, any_some, decide_eq_true_eq] at hearly
        omega
    · rfl
  unfold offer
  rw [if_neg (by simp [hpart]), if_neg (by simp [h.passes]), if_neg (by simp [hpass])]
  refine deliver_of_room ?_ sample
  rw [hch, passes_cfg]
  exact h.room

namespace TopicLiveliness

/-- The writer was reported as lost, and has not been heard of since. -/
def Lost (t : TopicLiveliness) (g : GUID) : Prop := t.fired g = some true
  deriving Decidable

end TopicLiveliness

namespace Process

def Settled (m : Process) : Prop := ∀ topic, (Ownership.stateFor m.ownership topic).Settled

theorem Settled.serve {m : Process} (h : m.Settled) (c : Call) : (m.serve c).1.Settled := by
  unfold Settled at *
  have hchange := m.serve_change c
  generalize (m.serve c).1 = m' at hchange ⊢
  generalize (m.serve c).2 = ds at hchange
  cases hchange with
  | quiet _ hown =>
    rw [hown]
    exact h
  | published _ _ _ hown =>
    rw [hown]
    exact h
  | subscriberAdded _ _ _ hown =>
    rw [hown]
    exact h
  | publisherAdded pub _ _ _ hown =>
    rw [hown]
    exact settled_enter h _
  | publisherClosed _ _ hown =>
    rw [hown]
    exact settled_leave h _

def nextSample (pub : Publisher) (payload : Bytes) (now : Int) : Sample :=
  { topic := pub.topic, payload := payload, timestamp := now, sequenceNumber := pub.seqNum + 1,
    writerGUID := pub.guid }

def Arrives (outputs : List Output) (sub : Nat) (sample : Sample) : Prop :=
  ∃ d, .delivered sub d sample ∈ outputs

theorem arrives_write_iff {m : Process} {pub : Publisher} {payload : Bytes} {now : Int}
    (hok : (m.write pub payload now).error = none) {s : Subscription}
    (hs : m.subs.get? s.id = some s) (hears : Broker.hears s.config pub.topic)
    (hpart : partitionsMatch pub.qos.partition s.partitions = true)
    (hwilling : s.Willing (nextSample pub payload now) now) :
    Arrives (m.write pub payload now).outputs s.id (nextSample pub payload now) ↔
      m.ownershipAllows pub.topic pub.guid := by
  let pub₁ := { pub with seqNum := pub.seqNum + 1 }
  let b := (m.setPublisher pub₁).toBroker
  let origin := (m.setPublisher pub₁).publication pub₁.config
  have hout : (m.write pub payload now).outputs =
      (b.publish pub.qos (nextSample pub payload now) origin now).2 := by
    unfold write at hok ⊢
    split_ifs at hok ⊢
    rfl
  rw [hout]
  constructor
  · rintro ⟨d, hd⟩
    exact (publish_outputs hd).1
  · intro hallow
    have hoffer := offer_of_willing hwilling hpart
    obtain ⟨hsubs, hown⟩ := prepare_same b pub.qos (nextSample pub payload now) origin now
    refine ⟨⟨origin, s.topic, s.partitions⟩, ?_⟩
    unfold Broker.publish
    dsimp only
    have hallow' : b.ownershipAllows (nextSample pub payload now).topic
        (nextSample pub payload now).writerGUID := hallow
    rw [if_neg (by unfold Broker.ownershipAllows at hallow' ⊢; rw [hown]; simp [hallow'])]
    refine List.mem_filterMap.2 ⟨s, hsubs ▸ (get?_eq_some.1 hs).1, ?_⟩
    have hcond : (Broker.hears s.config (nextSample pub payload now).topic &&
        (s.offer pub.qos.partition (nextSample pub payload now) now).2) = true := by
      rw [Bool.and_eq_true]
      exact ⟨hears, hoffer⟩
    rw [if_pos hcond]

end Process

end Mock

/-! ## Both backends -/

open Participant

/-- In both backends and after any run, let a writer lead the exclusive writers of a topic that a
subscriber has not been told are lost. A sample of that writer which nothing else keeps from the
subscriber is delivered to it exactly if the writer also comes before every lost one that is still
registered. -/
theorem failover_iff (cfg : ParticipantConfig) (antiReplay : Option Security.ReplayGuard)
    (ts : List Participant.Turn) (filterParse : Str → List Str → Option (Bytes → Bool))
    (calls : List Mock.Process.Call) :
    let p := (Run.run Participant.turn (Participant.new cfg antiReplay) ts).1
    let m := (Run.run Mock.Process.serve (Mock.Process.new filterParse) calls).1
    (∀ t d r x, p.Brings t d → p.readers.get? r.eid = some r → r.Willing d → p.Matched r d →
      d.source = x.1 → (Ownership.stateFor p.ownership r.topic).Leads r.Lost x →
      (Participant.Arrives (p.turn t).2 r.eid d.source ↔
        (stateFor p.ownership r.topic).Outlasts r.Lost x)) ∧
    (∀ pub payload now s x, m.publishers.get? pub.guid = some pub →
      (m.write pub payload now).error = none → m.subs.get? s.id = some s →
      Mock.Broker.hears s.config pub.topic = true →
      partitionsMatch pub.qos.partition s.partitions = true →
      s.Willing (nextSample pub payload now) now → pub.guid = x.1 →
      (stateFor m.ownership pub.topic).Leads (m.livelinessStateFor pub.topic).Lost x →
      (Mock.Process.Arrives (m.write pub payload now).outputs s.id
          (nextSample pub payload now) ↔
        (stateFor m.ownership pub.topic).Outlasts
          (m.livelinessStateFor pub.topic).Lost x)) := by
  intro p m
  constructor
  · intro t d r x hbrings hr hwilling hmatch hsource hlead
    have hsettled : p.Settled := settled_run cfg antiReplay ts
    rw [arrives_turn_iff hbrings hr hwilling hmatch, hsource,
      ← allows_iff_outlasts (hsettled r.topic) hlead, ← allows_eq]
    rfl
  · intro pub payload now s x _ hok hs hears hpart hwilling hguid hlead
    have hnew : (new filterParse).Settled := fun _ => settled_new
    have hsettled : m.Settled :=
      Run.run_invariant (I := Mock.Process.Settled) (fun _ c h => h.serve c) hnew calls
    rw [Mock.Process.arrives_write_iff hok hs hears hpart hwilling, hguid,
      ← allows_iff_outlasts (hsettled pub.topic) hlead, ← allows_eq]
    rfl

def leasedOf (strength : Int32) : QoS :=
  { defaultQoS with
    ownership := .exclusive
    ownershipStrength := strength
    liveliness := .manualByTopic
    livelinessLeaseDuration := second }

/-- Two writers of one topic, the first of them the stronger, and a subscriber that is told of
losses. -/
def rivals : List Turn :=
  [.call (.newPublisher (str "a") defaultTypeName (leasedOf 2) 0),
    .call (.newPublisher (str "a") defaultTypeName (leasedOf 1) second),
    .call (.newSubscriber (str "a") defaultTypeName defaultQoS
      SubscriberConfig.ofDefaults.withLivelinessLost 0)]

def mockRivals : List Mock.Process.Call :=
  let g := Mock.newMockGUID 1 0
  [.newParticipant 0 0, .newPublisher g (str "a") (leasedOf 2) 0,
    .newPublisher g (str "a") (leasedOf 1) 0,
    .newSubscriber g (str "a") defaultQoS SubscriberConfig.ofDefaults.withLivelinessLost]

theorem failover_after_close :
    let ts := rivals ++ [.call (.checkLiveliness (entityIdForReader 3)
      [⟨copy 12 [1], entityIdForWriter 1⟩] (2 * second)), .call (.closeWriter (entityIdForWriter 1))]
    let p := (Run.run turn (new (.ofDefaults (copy 12 [1])) none) ts).1
    let g := Mock.newMockGUID
    let calls := mockRivals ++ [.check (str "a") [g 2 0] (2 * second), .closePublisher (g 2 0)]
    let m := (Run.run Mock.Process.serve (Mock.Process.new fun _ _ => none) calls).1
    Participant.Arrives (p.turn (.call (.write (entityIdForWriter 2) [7] [] (2 * second)))).2
        (entityIdForReader 3) ⟨p.guidPrefix, entityIdForWriter 2⟩ ∧
    ∃ pub ∈ m.publishers.get? (g 3 0),
      Mock.Process.Arrives (m.write pub [7] (2 * second)).outputs 1
        (nextSample pub [7] (2 * second)) := by
  intro ts p g calls m
  obtain ⟨hrtps, hmock⟩ := failover_iff (.ofDefaults (copy 12 [1])) none ts
    (fun _ _ => none) calls
  constructor
  · have hfacts : ∃ w ∈ p.writers.get? (entityIdForWriter 2),
        ∃ r ∈ p.readers.get? (entityIdForReader 3),
        let d := p.localDispatch { w with seq := w.seq + 1 } [7] (2 * second)
        let x : GUID × Int32 := (⟨p.guidPrefix, w.eid⟩, 1)
        (p.write w [7] [] (2 * second)).error = none ∧ r.Willing d ∧ p.Matched r d ∧
          (stateFor p.ownership r.topic).Leads r.Lost x ∧
          (stateFor p.ownership r.topic).Outlasts r.Lost x := by decide +kernel
    obtain ⟨w, hw, r, hr, hok, hwilling, hmatch, hlead, hpast⟩ := hfacts
    have hweid : w.eid = entityIdForWriter 2 := (get?_eq_some.1 hw).2
    have hreid : r.eid = entityIdForReader 3 := (get?_eq_some.1 hr).2
    rw [← hweid] at hw ⊢
    rw [← hreid] at hr ⊢
    exact (hrtps _ _ r (⟨p.guidPrefix, w.eid⟩, 1) (.written hw hok) hr hwilling hmatch rfl hlead).2
      hpast
  · have hfacts : ∃ pub ∈ m.publishers.get? (g 3 0), ∃ s ∈ m.subs.get? 1,
        let x : GUID × Int32 := (pub.guid, 1)
        (m.write pub [7] (2 * second)).error = none ∧
          Mock.Broker.hears s.config pub.topic = true ∧
          partitionsMatch pub.qos.partition s.partitions = true ∧
          s.Willing (nextSample pub [7] (2 * second)) (2 * second) ∧
          (stateFor m.ownership pub.topic).Leads (m.livelinessStateFor pub.topic).Lost x ∧
          (stateFor m.ownership pub.topic).Outlasts
            (m.livelinessStateFor pub.topic).Lost x := by decide +kernel
    obtain ⟨pub, hpub, s, hs, hok, hears, hpart, hwilling, hlead, hpast⟩ := hfacts
    have hguid : pub.guid = g 3 0 := (get?_eq_some.1 hpub).2
    have hid : s.id = 1 := (get?_eq_some.1 hs).2
    refine ⟨pub, hpub, ?_⟩
    rw [← hguid] at hpub
    rw [← hid] at hs ⊢
    exact (hmock pub _ _ s (pub.guid, 1) hpub hok hs hears hpart hwilling rfl hlead).2 hpast

/-- The strongest writer is lost; the next sample of the other does not arrive, in either
backend. -/
theorem lost_writer_silences :
    let a : GUID := ⟨copy 12 [1], entityIdForWriter 1⟩
    let p := (Run.run turn (new (.ofDefaults (copy 12 [1])) none) rivals).1
    let told := p.turn (.call (.checkLiveliness (entityIdForReader 3) [a] (2 * second)))
    let g := Mock.newMockGUID
    let m := (Run.run Mock.Process.serve (Mock.Process.new fun _ _ => none) mockRivals).1
    let told' := m.call (.check (str "a") [g 2 0] (2 * second))
    (told.2 = [.livelinessLost (entityIdForReader 3) a] ∧
      (told.1.turn (.call (.write (entityIdForWriter 2) [7] [] (2 * second)))).2 = []) ∧
    (told'.2 = [.lost 1 (g 2 0)] ∧
      (told'.1.call (.write (g 3 0) [7] (2 * second))).2 = []) := by decide +kernel

end GoDDS
