import GoDDS.Rtps.LocalSpec

/-!
# When a local write arrives

`Willing` says that nothing of the reader's own is against a sample: it is open, and its filters,
its minimum separation and its channel let it in.
-/

namespace GoDDS

open ByteCodec Go Security

/-- The reader has no reason of its own to turn the sample down. -/
@[mk_iff]
structure Reader.Willing (r : Reader) (d : Participant.Dispatch) : Prop where
  isOpen : r.closed = false
  separated : 0 < r.minSeparation → ∀ last ∈ r.lastDelivered d.source, r.minSeparation ≤ d.now - last
  passes : d.passesFilters r = true
  room : r.ch.length < r.depth

instance (r : Reader) (d : Participant.Dispatch) : Decidable (r.Willing d) :=
  decidable_of_iff _ (r.willing_iff d).symm

variable {payload rnd : Bytes} {d : Dispatch} {now : Int} {p : Participant} {r : Reader}
  {w : Writer}

namespace Participant

open Reader

theorem passesTimeBasedFilter_of_willing (h : r.Willing d) :
    (r.passesTimeBasedFilter d.source d.now).2 := by
  unfold passesTimeBasedFilter
  split_ifs with hsep hlast
  · rfl
  · cases hget : r.lastDelivered d.source with
    | none => simp [hget] at hlast
    | some last =>
      have hlate := h.separated (by omega) last hget
      simp only [hget, Option.any_some, decide_eq_true_eq] at hlast
      omega
  · rfl

theorem willing_touchLiveliness (h : r.Willing d) (g : GUID) (now : Int) :
    (r.touchLiveliness g now).Willing d := by
  unfold touchLiveliness
  split
  · exact h
  · exact ⟨h.isOpen, h.separated, h.passes, h.room⟩

theorem deliverToReader_of_room (hopen : r.closed = false) (hroom : r.ch.length < r.depth) :
    (deliverToReader d r).2.effects = [.dispatch r.eid d.source d.origin (d.sample r) true] := by
  have hclosed : ¬ r.closed = true := by simp [hopen]
  rw [deliverToReader, if_neg hclosed, push_of_room hroom]

theorem passesFilters_congr {r' : Reader} (h : r'.config = r.config) (d : Dispatch) :
    d.passesFilters r' = d.passesFilters r := by
  unfold Dispatch.passesFilters
  rw [sample_congr h, h]

theorem passesTimeBasedFilter_fields (g : GUID) (now : Int) :
    (r.passesTimeBasedFilter g now).1.config = r.config ∧
      (r.passesTimeBasedFilter g now).1.closed = r.closed ∧
      (r.passesTimeBasedFilter g now).1.ch = r.ch := by
  unfold passesTimeBasedFilter
  split_ifs <;> exact ⟨rfl, rfl, rfl⟩

/-- The reader is one for the sample, as far as topic, source and partitions go. -/
@[mk_iff]
structure Matched (p : Participant) (r : Reader) (d : Dispatch) : Prop where
  topic : d.topicFits r = true
  source : r.acceptsSource p.guidPrefix d.source = true
  partitions : d.source.guidPrefix = p.guidPrefix →
    partitionsMatch d.writerPartitions r.partitions = true

instance (p : Participant) (r : Reader) (d : Dispatch) : Decidable (p.Matched r d) :=
  decidable_of_iff _ (p.matched_iff r d).symm

theorem offer_of_willing (hmatch : p.Matched r d) (h : r.Willing d) : (p.offer d r).2.effects =
      if p.ownershipAllows r.topic d.source = true then
        [.dispatch r.eid d.source d.origin (d.sample r) true] else [] := by
  have htouched := willing_touchLiveliness h d.source d.now
  have hcfg := (sameMatch_touchLiveliness r d.source d.now).cfg
  obtain ⟨hcfg', hclosed', hch'⟩ :=
    passesTimeBasedFilter_fields d.source d.now
  have hpass := passesTimeBasedFilter_of_willing htouched
  have hpart : ¬ (d.source.guidPrefix = p.guidPrefix ∧
      (!partitionsMatch d.writerPartitions r.partitions) = true) := by
    rintro ⟨hlocal, hnone⟩
    simp [hmatch.partitions hlocal] at hnone
  unfold offer
  dsimp only
  rw [if_neg (by simp [hmatch.topic]), if_neg (by simp [hmatch.source]),
    if_neg (by rw [hcfg]; exact hpart)]
  by_cases hown : p.ownershipAllows r.topic d.source
  swap
  · rw [if_pos (by rw [hcfg]; simpa using hown), if_neg hown]
    rfl
  rw [if_neg (by rw [hcfg]; simp [hown]), if_neg (by simp [hpass])]
  have hsame := hcfg'.trans hcfg
  have hfilters := passesFilters_congr hsame d
  rw [if_neg (by rw [hfilters]; simp [h.passes]), if_pos hown,
    deliverToReader_of_room (hclosed'.trans htouched.isOpen), sample_congr hsame, hsame]
  rw [hch', hcfg']
  exact htouched.room

def Arrives (effs : List Effect) (reader : EntityId) (source : GUID) : Prop :=
  ∃ origin sample, .dispatch reader source origin sample true ∈ effs

theorem offer_mem_write {e : Effect} (hok : (p.write w payload rnd now).error = none)
    (hr : r ∈ p.readers.items)
    (he : e ∈ (p.offer (p.localDispatch { w with seq := w.seq + 1 } payload now) r).2.effects) :
    e ∈ (p.write w payload rnd now).effects := by
  rcases write_cases p w payload rnd now with ⟨err, h⟩ | ⟨err, h⟩ | ⟨wire, msgs, -, -, h⟩
  · rw [h] at hok
    cases hok
  · rw [h] at hok
    cases hok
  · have hseq : ∀ v : Writer, (v.keep msgs).seq = v.seq := fun v => by
      unfold Writer.keep
      split_ifs <;> rfl
    rw [h, publish_effects, List.mem_append, deliverLocally_effects_eq]
    refine .inl (List.mem_flatMap.2 ⟨r, hr, ?_⟩)
    unfold localDispatch at he ⊢
    rw [hseq, Writer.keep_config]
    exact he

/-- A sample that was written arrives at a willing reader of the same participant exactly if the
topic matches, the partitions intersect and the ownership arbitration of the reader's topic lets it
through. -/
theorem arrives_iff (hok : (p.write w payload rnd now).error = none)
    (hr : p.readers.get? r.eid = some r)
    (hwilling : r.Willing (p.localDispatch { w with seq := w.seq + 1 } payload now)) :
    Arrives (p.write w payload rnd now).effects r.eid ⟨p.guidPrefix, w.eid⟩ ↔
      p.Admits w.config r.config := by
  constructor
  · rintro ⟨origin, sample, hmem⟩
    rcases write_effects hmem with hsend | ⟨r', hr', ⟨_, _, _, heq⟩, hadm⟩
    · cases hsend
    · have hsame : p.readers.get? r.eid = some r' :=
        Registry.get?_eq_some.2 ⟨hr', by injection heq with h; exact h.symm⟩
      rw [hr] at hsame
      obtain rfl := Option.some.inj hsame
      exact hadm
  · intro hadm
    let d := p.localDispatch { w with seq := w.seq + 1 } payload now
    have hfits : d.topicFits r := Dispatch.topicFits_iff.2 hadm.topic
    have hoffer : .dispatch r.eid d.source d.origin (d.sample r) true ∈
        (p.offer d r).2.effects := by
      have hmatch : p.Matched r d :=
        ⟨hfits, acceptsSource_iff.2 (.inl rfl), fun _ => hadm.partitions⟩
      have hown : p.ownershipAllows r.topic d.source := hadm.ownership
      rw [offer_of_willing hmatch hwilling, if_pos hown]
      exact List.mem_singleton_self _
    exact ⟨_, _, offer_mem_write hok (Registry.get?_eq_some.1 hr).1 hoffer⟩

theorem delivered_of_arrives (hget : p.writers.get? w.eid = some w)
    (hr : p.readers.get? r.eid = some r)
    (h : Arrives (p.write w payload rnd now).effects r.eid ⟨p.guidPrefix, w.eid⟩) :
    ⟨p.publication w, r.topic, r.partitions⟩ ∈ (p.serve (.write w.eid payload rnd now)).2 := by
  obtain ⟨origin, sample, hmem⟩ := h
  rw [serve_write hget]
  refine List.mem_filterMap.2 ⟨_, hmem, ?_⟩
  exact deliveryOf_dispatch (sameSetup_write p w payload rnd now).cfg
    (view_write_writers hget payload rnd now) (view_write_readers hget payload rnd now) hget
    (Registry.get?_eq_some.1 hr).1 origin sample

end Participant

end GoDDS
