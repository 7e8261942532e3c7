import GoDDS.Mock.BrokerSpec
import GoDDS.Rtps.LocalSpec

/-!
# Partition isolation

Both backends compare partitions when they dispatch a write, but not when they hand a kept sample to
a new subscriber.
-/

namespace GoDDS

open ByteCodec Go

namespace Participant

/-- If the call gives a new subscriber a kept sample, the writer of that shares a partition with
it. -/
def JoinsIsolated (p : Participant) (c : Call) : Prop :=
  ∀ req ∈ request p.config c, p.AcceptsReader req.topic →
    req.qos.durability = .transientLocal → ∀ kept ∈ p.keptFor req.topic,
      passesOwnFilters (Reader.new (p.readerConfig req.topic req.qos req.cfg req.contentFilter))
        kept.sample = true →
      partitionsMatch kept.origin.publisher.partitions req.qos.partition = true

theorem serve_isolated_iff (p : Participant) (c : Call) :
    (∀ d ∈ (p.serve c).2, d.Isolated) ↔ p.JoinsIsolated c := by
  constructor
  · intro h req hreq haccept hdur kept hkept hpass
    refine h ⟨kept.origin, req.topic, req.qos.partition⟩ ?_
    rw [serve_request hreq haccept]
    exact mem_joinDeliveries.2 ⟨hdur, kept, hkept, hpass, rfl⟩
  · intro hjoins d hd
    have hchange := p.serve_change c
    generalize (p.serve c).1 = q at hchange
    generalize (p.serve c).2 = ds at hchange hd
    cases hchange with
    | published hget hopen hview hds =>
      obtain ⟨r, -, hadm, rfl⟩ := hds d hd
      exact hadm.partitions
    | readerAdded req hreq haccept hview =>
      obtain ⟨hdur, kept, hkept, hpass, rfl⟩ := mem_joinDeliveries.1 hd
      exact hjoins req hreq haccept hdur kept hkept hpass
    | _ => cases hd

end Participant

namespace Mock.Process

/-- If the call gives a new subscriber a kept sample, the publisher of that shares a partition with
it. -/
def JoinsIsolated (m : Process) (c : Call) : Prop :=
  ∀ req ∈ m.request c, ∀ kept ∈ m.lastFor req.topic req.qos,
    Subscription.passesFilters (req.config m) kept.sample = true →
      partitionsMatch kept.origin.publisher.partitions req.qos.partition = true

theorem serve_isolated_iff (m : Process) (c : Call) :
    (∀ d ∈ (m.serve c).2, d.Isolated) ↔ m.JoinsIsolated c := by
  constructor
  · intro h req hreq kept hkept hpass
    refine h ⟨kept.origin, req.topic, req.qos.partition⟩ ?_
    rw [serve_request hreq]
    exact mem_joinDeliveries.2 ⟨kept, hkept, hpass, rfl⟩
  · intro hjoins d hd
    have hchange := m.serve_change c
    generalize (m.serve c).1 = m' at hchange
    generalize (m.serve c).2 = ds at hchange hd
    cases hchange with
    | published hget hopen hopened hown hds =>
      obtain ⟨-, hpart, horigin⟩ := hds d hd
      unfold Delivery.Isolated
      rw [horigin]
      exact hpart
    | subscriberAdded req hreq hopened hown =>
      obtain ⟨kept, hkept, hpass, rfl⟩ := mem_joinDeliveries.1 hd
      exact hjoins req hreq kept hkept hpass
    | _ => cases hd

end Mock.Process

/-- In a run of either backend no subscriber gets a sample from outside its partitions if and only
if, whenever a subscriber with transient-local durability is created, the sample it is given (if
there is one that passes its filters) is from a writer that shares a partition with it. -/
theorem partition_isolation_iff (cfg : ParticipantConfig) (antiReplay : Option Security.ReplayGuard)
    (calls : List Participant.Call) (filterParse : Str → List Str → Option (Bytes → Bool))
    (mockCalls : List Mock.Process.Call) :
    ((∀ d ∈ (Run.run Participant.serve (Participant.new cfg antiReplay) calls).2, d.Isolated) ↔
      Run.Along (fun _ p c => p.JoinsIsolated c) Participant.serve []
        (Participant.new cfg antiReplay) calls) ∧
    ((∀ d ∈ (Run.run Mock.Process.serve (Mock.Process.new filterParse) mockCalls).2, d.Isolated) ↔
      Run.Along (fun _ m c => m.JoinsIsolated c) Mock.Process.serve []
        (Mock.Process.new filterParse) mockCalls) := by
  rw [Run.forall_outputs_iff [], Run.forall_outputs_iff []]
  exact ⟨Run.along_congr (fun _ p c => p.serve_isolated_iff c) _ _ _,
    Run.along_congr (fun _ m c => m.serve_isolated_iff c) _ _ _⟩

def keepingIn (partition : Str) : QoS :=
  { defaultQoS with durability := .transientLocal, partition := [partition] }

/-- **A late joiner is given a sample from another partition**, in both backends. -/
theorem late_joiner_in_b :
    let p := Participant.new (.ofDefaults (FixedBytes.copy 12 [1])) none
    let t := str "t"
    let m := Mock.Process.new fun _ _ => none
    let g := Mock.newMockGUID
    (Run.run Participant.serve p
      [.newPublisher t defaultTypeName (keepingIn (str "a")) 0,
        .write (entityIdForWriter 1) [7] [] 0,
        .newSubscriber t defaultTypeName (keepingIn (str "b")) .ofDefaults 0]).2.map
          (fun d => (d.origin.publisher.partitions, d.partitions)) = [([str "a"], [str "b"])] ∧
    (Run.run Mock.Process.serve m
      [.newParticipant 0 0, .newPublisher (g 1 0) t (keepingIn (str "a")) 0, .write (g 2 0) [7] 0,
        .newSubscriber (g 1 0) t (keepingIn (str "b")) .ofDefaults]).2.map
          (fun d => (d.origin.publisher.partitions, d.partitions)) = [([str "a"], [str "b"])] ∧
    partitionsMatch [str "a"] [str "b"] = false := by decide +kernel

end GoDDS
