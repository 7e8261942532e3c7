import GoDDS.Rtps.ReceiveSpec
import GoDDS.Rtps.Wire

/-!
# At-most-once delivery

The packet handler drops the answer of `record`, so a number that arrives twice is delivered twice
(`receive_duplicate`). The tracker forgets numbers more than `maxReorderAhead` past the watermark.
-/

namespace GoDDS

open ByteCodec Go Security FixedBytes

def Effect.isDispatchOf (eid : EntityId) (g : GUID) (sn : UInt64) : Effect → Bool
  | .dispatch reader source origin _ _ => reader = eid && source = g && origin.sn = sn
  | _ => false

def deliveries (eid : EntityId) (g : GUID) (sn : UInt64) (effs : List Effect) : Nat :=
  effs.countP (Effect.isDispatchOf eid g sn)

theorem deliveries_append (eid : EntityId) (g : GUID) (sn : UInt64) (a b : List Effect) :
    deliveries eid g sn (a ++ b) = deliveries eid g sn a + deliveries eid g sn b :=
  List.countP_append

theorem deliveries_filter (eid : EntityId) (g : GUID) (sn : UInt64) (effs : List Effect) :
    deliveries eid g sn (effs.filter (Effect.isDispatchTo eid)) = deliveries eid g sn effs := by
  unfold deliveries
  rw [List.countP_filter]
  refine List.countP_congr fun e _ => ?_
  cases e <;> simp [Effect.isDispatchOf, Effect.isDispatchTo]
  tauto

namespace RecvTracker

/-- The tracker can tell that `sn` is new, and will remember it: the watermark does not wrap there,
and it is not too far past. -/
@[mk_iff]
structure IsNew (rt : RecvTracker) (sn : UInt64) : Prop where
  fresh : ¬ rt.Received sn
  ne_max : sn ≠ maxSN
  near : rt.initDone = true → rt.expected < sn → sn - rt.expected ≤ maxReorderAhead

instance (rt : RecvTracker) (sn : UInt64) : Decidable (rt.IsNew sn) :=
  decidable_of_iff _ (rt.isNew_iff sn).symm

end RecvTracker

variable {eid : EntityId} {g : GUID} {i : Input} {p : Participant} {r : Reader}

namespace Participant

/-- The input, if it is a sample of writer `g` that reader `eid` takes, is new to its tracker. -/
def BringsNew (eid : EntityId) (g : GUID) (p : Participant) (i : Input) : Prop :=
  ∀ r sn payload ts, p.readers.get? eid = some r → r.acceptsSource p.guidPrefix g = true →
    i.action = .data g sn payload ts → (r.trackerFor g).IsNew sn

instance (eid : EntityId) (g : GUID) (p : Participant) (i : Input) :
    Decidable (BringsNew eid g p i) := by
  unfold BringsNew
  rcases p.readers.get? eid with _ | r
  · exact isTrue (by simp)
  · rcases i.action with ⟨g', sn, _, _⟩ | _ | _
    · exact decidable_of_iff
        (r.acceptsSource p.guidPrefix g = true → g' = g → (r.trackerFor g).IsNew sn)
        ⟨by rintro h _ _ _ _ ⟨⟩ hacc ⟨⟩; exact h hacc rfl,
        fun h hacc hg => h r sn _ _ rfl hacc (by rw [hg])⟩
    all_goals exact isTrue (by simp)

/-- What has been delivered to reader `eid` from writer `g` has been received, and once. -/
structure Delivered (eid : EntityId) (g : GUID) (p : Participant) (effs : List Effect) (r : Reader) :
    Prop where
  get : p.readers.get? eid = some r
  reliable : r.reliable = true
  max_notMem : RecvTracker.maxSN ∉ (r.trackerFor g).ahead
  once : ∀ sn, deliveries eid g sn effs ≤ 1
  received : ∀ sn, 0 < deliveries eid g sn effs → (r.trackerFor g).Received sn

open RecvTracker

theorem received_windowMove {rt : RecvTracker} (hnew : BringsNew eid g p i)
    (hr : p.readers.get? eid = some r) (hmax : maxSN ∉ (r.trackerFor g).ahead)
    (hmove : WindowMove p.guidPrefix r i.action g rt) :
    maxSN ∉ rt.ahead ∧ ∀ sn, (r.trackerFor g).Received sn → rt.Received sn := by
  cases hmove with
  | same h =>
    rw [h.ahead]
    exact ⟨hmax, fun sn hsn => (h.received sn).2 hsn⟩
  | contact hb ha h =>
    rw [h.ahead, ahead_initExpected]
    exact ⟨hmax, fun sn hsn => (h.received sn).2 (received_initExpected hsn _)⟩
  | record seq payload ts ha hacc h =>
    have hseq := (hnew r seq payload ts hr hacc ha).ne_max
    rw [h.ahead]
    exact ⟨maxSN_notMem_record hmax hseq,
      fun sn hsn => (h.received sn).2 (received_record hsn hmax hseq)⟩

theorem deliveries_act {r' : Reader} (hnew : BringsNew eid g p i) (hr : p.readers.get? eid = some r)
    (hrel : r.reliable) (hmax : maxSN ∉ (r.trackerFor g).ahead)
    (hr' : (p.act i).1.readers.get? eid = some r') (sn : UInt64) :
    deliveries eid g sn (p.act i).2 = 0 ∨
      deliveries eid g sn (p.act i).2 = 1 ∧ ¬ (r.trackerFor g).Received sn ∧
        (r'.trackerFor g).Received sn := by
  rw [← deliveries_filter]
  rcases act_dispatches p i eid with hnone |
    ⟨r₀, r₁, g', sn', payload, ts, queued, ha, hr₀, hr₁, hacc, -, hrec, hone⟩
  · rw [hnone]
    exact .inl rfl
  · obtain rfl := Option.some.inj (hr₀.symm.trans hr)
    obtain rfl := Option.some.inj (hr₁.symm.trans hr')
    rw [hone]
    by_cases hmatch : g' = g ∧ sn' = sn
    · obtain ⟨rfl, rfl⟩ := hmatch
      have hisNew := hnew r₀ sn' payload ts hr hacc ha
      refine .inr ⟨by simp [deliveries, Effect.isDispatchOf], hisNew.fresh, ?_⟩
      rw [(hrec hrel).received]
      exact received_record_self hmax hisNew.ne_max hisNew.near
    · refine .inl ?_
      simp [deliveries, Effect.isDispatchOf, hmatch]

theorem delivered_act {effs : List Effect} (hnew : BringsNew eid g p i)
    (h : Delivered eid g p effs r) :
    ∃ r', Delivered eid g (p.act i).1 (effs ++ (p.act i).2) r' := by
  obtain ⟨r', hr', hsame, hmove⟩ := act_reader i h.get
  obtain ⟨hmax', hkeep⟩ := received_windowMove hnew h.get h.max_notMem (hmove g)
  have hstep := deliveries_act hnew h.get h.reliable h.max_notMem hr'
  refine ⟨r', hr', by rw [hsame.reliable, h.reliable], hmax', fun sn => ?_, fun sn hpos => ?_⟩
  · have honce := h.once sn
    rw [deliveries_append]
    rcases hstep sn with hzero | ⟨hone, hfresh, -⟩
    · omega
    · have hbefore : ¬ 0 < deliveries eid g sn effs := fun hpos => hfresh (h.received sn hpos)
      omega
  · rw [deliveries_append] at hpos
    rcases hstep sn with hzero | ⟨-, -, hafter⟩
    · exact hkeep sn (h.received sn (by omega))
    · exact hafter

theorem delivered_run {is : List Input} (hr : p.readers.get? eid = some r)
    (hrel : r.reliable) (hno : r.trackers g = none)
    (hnew : Run.Along (fun _ => BringsNew eid g) act [] p is) :
    ∃ r', Delivered eid g (Run.run act p is).1 (Run.run act p is).2 r' := by
  refine Run.run_induction (J := fun q _ effs => ∃ r', Delivered eid g q effs r')
    (fun q i _ effs hC hJ => ?_) ⟨r, hr, hrel, ?_, fun sn => ?_, fun sn hpos => ?_⟩ hnew
  · obtain ⟨r', h⟩ := hJ
    exact delivered_act hC h
  · rw [Reader.trackerFor, hno]
    exact Finset.notMem_empty _
  · exact Nat.zero_le 1
  · exact absurd hpos (Nat.lt_irrefl 0)

/-- In every run of packets in which each DATA submessage of the writer brings a number that the
reader's tracker can and does still tell to be new, every number is delivered at most once. -/
theorem receive_at_most_once {eid : EntityId} {g : GUID} {p : Participant} {r : Reader}
    {pkts : List Packet} (hr : p.readers.get? eid = some r) (hrel : r.reliable = true)
    (hno : r.trackers g = none) (hnew : Run.Along (fun _ => BringsNew eid g) act [] p
      (pkts.flatMap (inputsOf p.config)))
    (sn : UInt64) : deliveries eid g sn (p.receive pkts).2 ≤ 1 := by
  obtain ⟨r', h⟩ := delivered_run hr hrel hno hnew
  rw [receive_eq_run]
  exact h.once sn

def matchedReader (g : GUID) : Reader :=
  { Reader.new (ReaderConfig.ofDefaults (str "t") (entityIdForReader 1) true) with sources := {g} }

def subscribedTo (own : GuidPrefix) (g : GUID) : Participant :=
  { Participant.new (ParticipantConfig.ofDefaults own) none with
    readers := Registry.empty.insert (matchedReader g) }

theorem receive_at_most_once_two :
    let own : GuidPrefix := copy 12 [1]
    let g : GUID := ⟨copy 12 [2], entityIdForWriter 1⟩
    deliveries (entityIdForReader 1) g 1 ((subscribedTo own g).receive
      [⟨dataMessage g.guidPrefix g.entity (u64ToSN 1) 0 [7], none, 0⟩,
        ⟨dataMessage g.guidPrefix g.entity (u64ToSN 2) 0 [8], none, 0⟩]).2 ≤ 1 := by
  intro own g
  exact receive_at_most_once (r := _) rfl rfl rfl (by decide +kernel) 1

theorem receive_duplicate :
    let own : GuidPrefix := copy 12 [1]
    let g : GUID := ⟨copy 12 [2], entityIdForWriter 1⟩
    let pkt : Packet := ⟨dataMessage g.guidPrefix g.entity (u64ToSN 1) 0 [7], none, 0⟩
    (((subscribedTo own g).readers.get? (entityIdForReader 1)).any fun r => r.reliable) = true ∧
      ¬ deliveries (entityIdForReader 1) g 1 ((subscribedTo own g).receive [pkt, pkt]).2 ≤ 1 := by
  decide +kernel

end Participant

end GoDDS
