import GoDDS.Arbitration
import GoDDS.Rtps.LocalSpec

/-!
# The arbitration of a participant

The table of the arbitration knows the open exclusive writers of the participant, in every run in
which no writer gets the id of one that is still open (`tracked_stable`).
-/

namespace GoDDS

open ByteCodec Go Security Function Ownership

variable {opened : Finset Publisher} {cfg : ParticipantConfig}

namespace Participant

/-- The next writer does not get the id of an open one. Ids have 24 bits. -/
def FreshId (p : Participant) : Prop :=
  ∀ w, p.writers.get? (entityIdForWriter (p.entityCounter + 1)) = some w → w.closed = true

def FreshIds (p : Participant) : Call → Prop
  | .newPublisher _ _ _ _ => p.FreshId
  | _ => True

instance (p : Participant) : Decidable p.FreshId :=
  inferInstanceAs (Decidable (∀ w ∈ p.writers.get? _, w.closed = true))

instance (p : Participant) (c : Call) : Decidable (p.FreshIds c) := by
  unfold FreshIds
  split <;> infer_instance

def Lists (cfg : ParticipantConfig) (writers : EntityId → Option (WriterConfig × Bool))
    (opened : Finset Publisher) : Prop :=
  ∀ x, x ∈ opened ↔ ∃ eid w, writers eid = some (w, false) ∧ x = publisher cfg w

/-- Writers are found under their ids, and the arbitration knows the open ones. -/
structure Tracked (cfg : ParticipantConfig) (v : View) : Prop where
  keyed : ∀ eid w, v.writers eid = some w → w.1.eid = eid
  arbitrated : ∃ opened, Lists cfg v.writers opened ∧ Ownership.Arbitrates v.ownership opened

theorem tracked_new (cfg : ParticipantConfig) (antiReplay : Option ReplayGuard) :
    Tracked cfg (Participant.new cfg antiReplay).view :=
  { keyed := fun _ _ h => by cases h
    arbitrated := ⟨∅, fun x => by simp [Participant.new, view, Registry.empty, Registry.get?],
      arbitrates_empty⟩ }

theorem Tracked.distinct {v : View} (h : Tracked cfg v) (hlists : Lists cfg v.writers opened) :
    Ownership.Distinct opened := by
  intro x hx y hy hguid
  obtain ⟨eid, w, hw, rfl⟩ := (hlists x).1 hx
  obtain ⟨eid', w', hw', rfl⟩ := (hlists y).1 hy
  have heid : eid = eid' := by
    rw [← h.keyed eid _ hw, ← h.keyed eid' _ hw']
    exact congrArg GUID.entity hguid
  rw [← heid, hw] at hw'
  rw [(Prod.mk.inj (Option.some.inj hw')).1]

variable {writers : EntityId → Option (WriterConfig × Bool)}

theorem lists_open (h : Lists cfg writers opened) {w : WriterConfig}
    (hfresh : ∀ v, writers w.eid ≠ some (v, false)) :
    Lists cfg (Function.update writers w.eid (some (w, false)))
      (insert (publisher cfg w) opened) := by
  intro x
  rw [Finset.mem_insert, h]
  constructor
  · rintro (rfl | ⟨eid, v, hv, rfl⟩)
    · exact ⟨w.eid, w, update_self _ _ _, rfl⟩
    · have hne : eid ≠ w.eid := fun heq => hfresh v (heq ▸ hv)
      exact ⟨eid, v, (update_of_ne hne _ _).trans hv, rfl⟩
  · rintro ⟨eid, v, hv, rfl⟩
    rw [update_apply] at hv
    split_ifs at hv
    · exact .inl (by rw [(Prod.mk.inj (Option.some.inj hv)).1])
    · exact .inr ⟨eid, v, hv, rfl⟩

theorem lists_close
    (h : Lists cfg writers opened) (hkeyed : ∀ eid v, writers eid = some v → v.1.eid = eid)
    (w : WriterConfig) : Lists cfg (Function.update writers w.eid (some (w, true)))
      (opened.filter fun y => y.guid ≠ (publisher cfg w).guid) := by
  intro x
  rw [Finset.mem_filter, h]
  constructor
  · rintro ⟨⟨eid, v, hv, rfl⟩, hguid⟩
    have hne : eid ≠ w.eid := fun heq => hguid (by
      have hveid : v.eid = w.eid := (hkeyed eid _ hv).trans heq
      show GUID.mk _ v.eid = GUID.mk _ w.eid
      rw [hveid])
    exact ⟨eid, v, (update_of_ne hne _ _).trans hv, rfl⟩
  · rintro ⟨eid, v, hv, rfl⟩
    rw [update_apply] at hv
    split_ifs at hv with heid
    · cases (Prod.mk.inj (Option.some.inj hv)).2
    · refine ⟨⟨eid, v, hv, rfl⟩, fun hguid => heid ?_⟩
      rw [← hkeyed eid _ hv]
      exact congrArg GUID.entity hguid

theorem view_addWriter_ownership (v : View) (cfg : ParticipantConfig) (w : WriterConfig) :
    (v.addWriter cfg w).ownership = enter v.ownership (publisher cfg w) := by
  unfold View.addWriter enter publisher
  simp only [decide_eq_true_eq]
  rfl

theorem view_closeWriter_ownership (v : View) (cfg : ParticipantConfig) (w : WriterConfig) :
    (v.closeWriter cfg w).ownership = leave v.ownership (publisher cfg w) := by
  unfold View.closeWriter leave publisher
  simp only [decide_eq_true_eq]
  rfl

theorem tracked_stable (cfg : ParticipantConfig) : Stable cfg FreshIds (Tracked cfg) where
  write _ _ _ _ _ _ _ h := ⟨h.keyed, h.arbitrated⟩
  addWriter p topic typeName qos now hcfg hfresh _ h := by
    obtain ⟨opened, hlists, harb⟩ := h.arbitrated
    let w := p.writerConfig topic qos
    have hfree : ∀ v, p.view.writers w.eid ≠ some (v, false) := by
      intro v hv
      obtain ⟨x, hx, -, hopen⟩ := view_writers_iff.1 hv
      rw [hfresh x hx] at hopen
      cases hopen
    refine ⟨Table.forall_set rfl h.keyed, insert (publisher cfg w) opened, lists_open hlists hfree, ?_⟩
    rw [view_addWriter_ownership]
    refine harb.enter fun y hy hguid => ?_
    obtain ⟨eid, v, hv, rfl⟩ := (hlists y).1 hy
    have heid : eid = w.eid := by
      rw [← h.keyed eid _ hv]
      exact congrArg GUID.entity hguid
    exact hfree v (heid ▸ hv)
  addReader _ _ _ _ h := ⟨h.keyed, h.arbitrated⟩
  closeWriter p w hcfg hget hopen h := by
    obtain ⟨opened, hlists, harb⟩ := h.arbitrated
    have hw : p.view.writers w.eid = some (w.config, false) :=
      view_writers_iff.2 ⟨w, hget, rfl, hopen⟩
    have hmem : publisher cfg w.config ∈ opened := (hlists _).2 ⟨w.eid, _, hw, rfl⟩
    refine ⟨Table.forall_set rfl h.keyed, _, lists_close hlists h.keyed w.config, ?_⟩
    rw [view_closeWriter_ownership]
    exact harb.leave fun y hy hguid => h.distinct hlists y hy _ hmem hguid
  unsubscribe _ _ h := ⟨h.keyed, h.arbitrated⟩
  close _ h := ⟨h.keyed, h.arbitrated⟩

/-- The arbitration of the topic a writer writes on lets its samples through exactly if it is in
charge. -/
theorem ownershipAllows_iff {p : Participant} (h : Tracked p.config p.view)
    {w : Writer} (hget : p.writers.get? w.eid = some w) (hopen : w.closed = false) :
    p.ownershipAllows w.topic ⟨p.guidPrefix, w.eid⟩ ↔ (p.publication w).InCharge := by
  obtain ⟨opened, hlists, harb⟩ := h.arbitrated
  have hopened : opened = p.openPublishers := by
    ext x
    rw [hlists, mem_openPublishers]
  have hmem : publisher p.config w.config ∈ p.openPublishers :=
    mem_openPublishers.2 ⟨w.eid, _, view_writers_iff.2 ⟨w, hget, rfl, hopen⟩, rfl⟩
  subst hopened
  exact harb.allows_iff (h.distinct hlists) hmem

end Participant

end GoDDS
