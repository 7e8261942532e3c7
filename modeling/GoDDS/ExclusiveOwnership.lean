import GoDDS.Mock.BrokerSpec
import GoDDS.Rtps.LocalOwnership

/-!
# Exclusive ownership

A sample for late joiners is kept in any case, and the rtps backend asks the arbitration of the
topic a reader subscribed to, so that a reader of a pattern hears the silenced writers of the topics
it matches.
-/

namespace GoDDS

open ByteCodec Go Delivery

namespace Participant

/-- A write that reaches a reader of a pattern is by a writer in charge. -/
def WritesInCharge (p : Participant) : Call → Prop
  | .write eid _ _ _ => ∀ w ∈ p.writers.get? eid, w.closed = false → ∀ r ∈ p.readers.items,
      r.topic ≠ w.topic → p.Admits w.config r.config → (p.publication w).InCharge
  | _ => True

/-- A sample given to a new subscriber was written by a writer in charge that shares a partition
with it. -/
def JoinsInCharge (p : Participant) (c : Call) : Prop :=
  ∀ req ∈ request p.config c, p.AcceptsReader req.topic →
    req.qos.durability = .transientLocal → ∀ kept ∈ p.keptFor req.topic,
      passesOwnFilters (Reader.new (p.readerConfig req.topic req.qos req.cfg req.contentFilter))
        kept.sample = true →
      kept.origin.InCharge ∧
        partitionsMatch kept.origin.publisher.partitions req.qos.partition = true
  deriving Decidable

/-- The call is none that goes past the arbitration, and it does not give out an id twice. -/
@[mk_iff]
structure Orderly (p : Participant) (c : Call) : Prop where
  fresh : p.FreshIds c
  writes : p.WritesInCharge c
  joins : p.JoinsInCharge c

instance (p : Participant) (c : Call) : Decidable (p.WritesInCharge c) := by
  unfold WritesInCharge
  split <;> infer_instance

instance (p : Participant) (c : Call) : Decidable (p.Orderly c) :=
  decidable_of_iff _ (p.orderly_iff c).symm

theorem serve_owned {p : Participant} (h : Tracked p.config p.view) {c : Call}
    (hc : p.Orderly c) : ∀ d ∈ (p.serve c).2, d.Owned := by
  intro d hd
  have hchange := p.serve_change c
  generalize (p.serve c).1 = q at hchange
  generalize (p.serve c).2 = ds at hchange hd
  cases hchange with
  | @published _ _ w _ _ _ hget hopen hview hds =>
    obtain ⟨r, hr, hadm, rfl⟩ := hds d hd
    refine owned_of_inCharge ?_ hadm.partitions
    by_cases htopic : r.topic = w.topic
    · exact (ownershipAllows_iff h hget hopen).1 (htopic ▸ hadm.ownership)
    · obtain ⟨r', hr', rfl⟩ := Option.map_eq_some_iff.1 hr
      exact hc.writes _ hget hopen r' (Registry.get?_eq_some.1 hr').1 htopic hadm
  | readerAdded req hreq haccept hview =>
    obtain ⟨hdur, kept, hkept, hpass, rfl⟩ := mem_joinDeliveries.1 hd
    obtain ⟨hcharge, hpart⟩ := hc.joins req hreq haccept hdur kept hkept hpass
    exact owned_of_inCharge hcharge hpart
  | quiet => cases hd
  | writerAdded => cases hd
  | writerClosed => cases hd
  | unsubscribed => cases hd
  | closed => cases hd

end Participant

namespace Mock.Process

/-- A sample given to a new subscriber was written by a publisher in charge that shares a partition
with it. -/
def JoinsInCharge (m : Process) (c : Call) : Prop :=
  ∀ req ∈ m.request c, ∀ kept ∈ m.lastFor req.topic req.qos,
    Subscription.passesFilters (req.config m) kept.sample = true →
      kept.origin.InCharge ∧
        partitionsMatch kept.origin.publisher.partitions req.qos.partition = true
  deriving Decidable

/-- The call is none that goes past the arbitration, and it does not give out an identifier
twice. -/
@[mk_iff]
structure Orderly (m : Process) (c : Call) : Prop where
  fresh : m.FreshIds c
  joins : m.JoinsInCharge c

instance (m : Process) (c : Call) : Decidable (m.Orderly c) :=
  decidable_of_iff _ (m.orderly_iff c).symm

theorem serve_owned {m : Process} (h : m.Tracked) {c : Call} (hc : m.Orderly c) :
    ∀ d ∈ (m.serve c).2, d.Owned := by
  intro d hd
  have hchange := m.serve_change c
  generalize (m.serve c).1 = m' at hchange
  generalize (m.serve c).2 = ds at hchange hd
  cases hchange with
  | published hget hopen hopened hown hds =>
    obtain ⟨hallow, hpart, horigin⟩ := hds d hd
    have hcharge := (ownershipAllows_iff h hget hopen).1 hallow
    rw [← horigin] at hcharge
    refine owned_of_inCharge hcharge ?_
    unfold Delivery.Isolated
    rw [horigin]
    exact hpart
  | subscriberAdded req hreq hopened hown =>
    obtain ⟨kept, hkept, hpass, rfl⟩ := mem_joinDeliveries.1 hd
    obtain ⟨hcharge, hpart⟩ := hc.joins req hreq kept hkept hpass
    exact owned_of_inCharge hcharge hpart
  | _ => cases hd

end Mock.Process

open Participant

open Mock.Process

/-- In every run of either backend in which these exceptions do not arise (`Orderly`) each sample a
subscriber gets is from the first in rank of the open exclusive publishers of its topic that share a
partition with the subscriber, if there are any. -/
theorem exclusive_ownership (cfg : ParticipantConfig) (antiReplay : Option Security.ReplayGuard)
    (calls : List Participant.Call) (filterParse : Str → List Str → Option (Bytes → Bool))
    (mockCalls : List Mock.Process.Call) :
    (Run.Along (fun _ p c => p.Orderly c) Participant.serve [] (Participant.new cfg antiReplay)
        calls →
      ∀ d ∈ (Run.run Participant.serve (Participant.new cfg antiReplay) calls).2, d.Owned) ∧
    (Run.Along (fun _ m c => m.Orderly c) Mock.Process.serve [] (Mock.Process.new filterParse)
        mockCalls →
      ∀ d ∈ (Run.run Mock.Process.serve (Mock.Process.new filterParse) mockCalls).2, d.Owned) := by
  constructor
  · intro horderly
    have hstable := (tracked_stable cfg).mono fun p c (hc : p.Orderly c) => hc.fresh
    refine hstable.run_deliveries ?_ ⟨rfl, tracked_new cfg antiReplay⟩ horderly
    rintro q c rfl hq hc
    exact serve_owned hq hc
  · intro horderly
    exact Run.outputs_of_along (fun _ _ _ hm hc => hm.serve hc.fresh)
      (fun _ _ _ hm hc => serve_owned hm hc) (tracked_new filterParse) horderly

def exclusiveOf (strength : Int32) : QoS :=
  { defaultQoS with
    durability := .transientLocal
    ownership := .exclusive
    ownershipStrength := strength }

/-- One of two exclusive writers of a topic writes, with a reader of a pattern and a late joiner. -/
def contest (writer : EntityId) : List Participant.Call :=
  [.newPublisher (str "a/b") defaultTypeName (exclusiveOf 1) 0,
    .newPublisher (str "a/b") defaultTypeName (exclusiveOf 2) 0,
    .newSubscriber (str "a/#") defaultTypeName defaultQoS .ofDefaults 0,
    .write writer [7] [] 0,
    .newSubscriber (str "a/b") defaultTypeName (exclusiveOf 0) .ofDefaults 0]

def mockContest (writer : GUID) : List Mock.Process.Call :=
  let g := Mock.newMockGUID 1 0
  [.newParticipant 0 0, .newPublisher g (str "a/b") (exclusiveOf 1) 0,
    .newPublisher g (str "a/b") (exclusiveOf 2) 0,
    .newSubscriber g (str "a/#") defaultQoS .ofDefaults, .write writer [7] 0,
    .newSubscriber g (str "a/b") (exclusiveOf 0) .ofDefaults]

theorem exclusive_ownership_two :
    let p := new (.ofDefaults (FixedBytes.copy 12 [1])) none
    let calls := contest (entityIdForWriter 2)
    let m := new fun _ _ => none
    let calls' := mockContest (Mock.newMockGUID 3 0)
    ((Run.run Participant.serve p calls).2.length = 2 ∧
      ∀ d ∈ (Run.run Participant.serve p calls).2, d.Owned) ∧
    ((Run.run Mock.Process.serve m calls').2.length = 2 ∧
      ∀ d ∈ (Run.run Mock.Process.serve m calls').2, d.Owned) := by
  intro p calls m calls'
  have horderly : Run.Along (fun _ p c => p.Orderly c) Participant.serve [] p calls := by
    decide +kernel
  have horderly' : Run.Along (fun _ m c => m.Orderly c) Mock.Process.serve [] m calls' := by
    decide +kernel
  obtain ⟨hrtps, hmock⟩ := exclusive_ownership (.ofDefaults (FixedBytes.copy 12 [1])) none calls
    (fun _ _ => none) calls'
  exact ⟨⟨by decide +kernel, hrtps horderly⟩, by decide +kernel, hmock horderly'⟩

/-- The sample of the weaker of two exclusive publishers reaches a pattern's reader in the rtps
backend and a late joiner in both. -/
theorem silenced_writer_heard :
    (Run.run Participant.serve (new (.ofDefaults (FixedBytes.copy 12 [1])) none)
      (contest (entityIdForWriter 1))).2.map (fun d => (d.topic, decide d.Owned)) =
        [(str "a/#", false), (str "a/b", false)] ∧
    (Run.run Mock.Process.serve (new fun _ _ => none) (mockContest (Mock.newMockGUID 2 0))).2.map
      (fun d => (d.topic, decide d.Owned)) = [(str "a/b", false)] := by decide +kernel

end GoDDS
