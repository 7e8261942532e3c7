import GoDDS.Rtps.Life
import GoDDS.Rtps.LocalDelivery

/-!
# When a received sample arrives

A sample that a writer of the participant writes, or that is received (`Brings`), is offered to
every reader.
-/

namespace GoDDS

open ByteCodec Go Security

namespace Participant

/-- The turn brings the sample to the dispatch: a writer here writes it, or it is received. -/
inductive Brings (p : Participant) : Turn → Dispatch → Prop
  | written {w : Writer} {payload rnd : Bytes} {now : Int} (hget : p.writers.get? w.eid = some w)
      (hok : (p.write w payload rnd now).error = none) :
      Brings p (.call (.write w.eid payload rnd now))
        (p.localDispatch { w with seq := w.seq + 1 } payload now)
  | received {g : GUID} {sn : UInt64} {payload : Bytes} {ts now : Int} {src : Option UDPAddr}
      (hrunning : p.stuck = false) (hpass : (p.checkReplay g sn ts).2.2 = true)
      (hreturns : (p.act ⟨.data g sn payload ts, src, now⟩).1.stuck = false) :
      Brings p (.act ⟨.data g sn payload ts, src, now⟩) (remoteDispatch g sn payload ts now)

theorem notify_reader (r : Reader) (own : GuidPrefix) (g : GUID) (sn : UInt64)
    (src : Option UDPAddr) :
    ∃ trackers, (r.notify own g sn src).reader = { r with trackers := trackers } := by
  unfold Reader.notify Reader.acknowledge
  split_ifs
  · exact ⟨r.trackers, rfl⟩
  · cases ((r.trackerFor g).record sn).1.missing sn with
    | none => exact ⟨_, rfl⟩
    | some m =>
      cases src with
      | none => exact ⟨_, rfl⟩
      | some addr =>
        dsimp only
        split_ifs <;> exact ⟨_, rfl⟩

theorem arrives_act_iff {p : Participant} {g : GUID} {sn : UInt64} {payload : Bytes} {ts now : Int}
    {src : Option UDPAddr} (hrunning : p.stuck = false) (hpass : (p.checkReplay g sn ts).2.2)
    (hreturns : (p.act ⟨.data g sn payload ts, src, now⟩).1.stuck = false) {r : Reader}
    (hr : p.readers.get? r.eid = some r) (hwilling : r.Willing (remoteDispatch g sn payload ts now))
    (hmatch : p.Matched r (remoteDispatch g sn payload ts now)) :
    Arrives (p.act ⟨.data g sn payload ts, src, now⟩).2 r.eid g ↔ p.ownershipAllows r.topic g := by
  let chk := p.checkReplay g sn ts
  let told := chk.1.notifyReliableReaders g sn src
  let d := remoteDispatch g sn payload ts now
  have hact : (p.act ⟨.data g sn payload ts, src, now⟩).2 =
      chk.2.1 ++ (told.2 ++ (told.1.dispatchToReaders d).2) := by
    rw [act_data hrunning] at hreturns ⊢
    rcases handleOpened_cases p g sn payload src ts now with ⟨hno, -⟩ | ⟨-, hstuck, h⟩ | ⟨-, -, h⟩
    · rw [hpass] at hno
      cases hno
    · rw [h, hstuck] at hreturns
      cases hreturns
    · rw [h]
  obtain ⟨trackers, htrackers⟩ := notify_reader r p.guidPrefix g sn src
  have hcfg : told.1.config = p.config :=
    checkReplay_config p g sn ts
  have hview : told.1.view = p.view := (view_react _ _ _).trans (p.view_checkReplay g sn ts)
  have hown : told.1.ownership = p.ownership := congrArg View.ownership hview
  have htold : told.1.readers.get? r.eid = some { r with trackers := trackers } := by
    rw [get?_notifyReliableReaders, checkReplay_readers, checkReplay_config, hr,
      Option.map_some, htrackers]
  have hmatch' : told.1.Matched { r with trackers := trackers } d := by
    constructor
    · exact hmatch.topic
    · rw [hcfg]
      exact hmatch.source
    · rw [hcfg]
      exact hmatch.partitions
  have hoffer := offer_of_willing (r := { r with trackers := trackers }) hmatch'
    ⟨hwilling.isOpen, hwilling.separated, hwilling.passes, hwilling.room⟩
  have hfilter : (p.act ⟨.data g sn payload ts, src, now⟩).2.filter (Effect.isDispatchTo r.eid) =
      if p.ownershipAllows r.topic g = true then
        [.dispatch r.eid g d.origin (d.sample r) true] else [] := by
    have hallow : told.1.ownershipAllows r.topic g = p.ownershipAllows r.topic g := by
      unfold ownershipAllows
      rw [hown]
    rw [hact, List.filter_append, List.filter_append, checkReplay_dispatches,
      notifyReliableReaders_dispatches, dispatchToReaders_filter, htold, List.nil_append,
      List.nil_append, Option.map_some, Option.getD_some, hoffer]
    show (if told.1.ownershipAllows r.topic g = true then _ else _) = _
    rw [hallow]
    rfl
  have hmem : ∀ origin sample, .dispatch r.eid g origin sample true ∈
      (p.act ⟨.data g sn payload ts, src, now⟩).2 ↔ .dispatch r.eid g origin sample true ∈
      (p.act ⟨.data g sn payload ts, src, now⟩).2.filter (Effect.isDispatchTo r.eid) := by
    intro origin sample
    simp [List.mem_filter, Effect.isDispatchTo]
  unfold Arrives
  simp only [hmem, hfilter]
  by_cases hallow : p.ownershipAllows r.topic g
  all_goals simp [hallow]

/-- A sample that nothing else keeps from a reader arrives there exactly if the ownership
arbitration of the reader's topic lets it through. -/
theorem arrives_turn_iff {p : Participant} {t : Turn} {d : Dispatch} (hbrings : p.Brings t d)
    {r : Reader} (hr : p.readers.get? r.eid = some r) (hwilling : r.Willing d)
    (hmatch : p.Matched r d) :
    Arrives (p.turn t).2 r.eid d.source ↔ p.ownershipAllows r.topic d.source := by
  cases hbrings with
  | @written w payload rnd now hget hok =>
    have heffects : (p.turn (.call (.write w.eid payload rnd now))).2 =
        (p.write w payload rnd now).effects := by
      show (p.writeBy w.eid payload rnd now).2 = _
      unfold writeBy
      rw [hget]
    rw [heffects]
    refine (arrives_iff hok hr hwilling).trans ⟨fun hadm => hadm.ownership, fun hown => ?_⟩
    exact ⟨Dispatch.topicFits_iff.1 hmatch.topic, hmatch.partitions rfl, hown⟩
  | received hrunning hpass hreturns =>
    exact arrives_act_iff hrunning hpass hreturns hr hwilling hmatch

end Participant

end GoDDS
