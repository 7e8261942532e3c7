import GoDDS.Rtps.Life
import GoDDS.Rtps.LocalOwnership

/-!
# Who takes part in the arbitration
-/

namespace GoDDS

open ByteCodec Go Security Registry Ownership List FixedBytes Run

def EndpointInfo.publisher (info : EndpointInfo) : Publisher :=
  { guid := info.guid, topic := info.topicName, partitions := info.partitions,
    exclusive := info.ownershipExclusive, strength := info.ownershipStrength }

namespace Participant

/-! ## Changes of the arbitration -/

theorem ownership_onRemoteWriter (p : Participant) (info : EndpointInfo) (l : Locator) (now : Int) :
    (p.onRemoteWriter info l now).ownership = enter p.ownership info.publisher := rfl

theorem ownership_onPeerEvicted (p : Participant) (gone : GuidPrefix) :
    (p.onPeerEvicted gone).ownership =
      ((p.sedp.remoteWriters.items.filter fun info => info.guid.guidPrefix = gone).map
        EndpointInfo.publisher).foldl Ownership.leave p.ownership := by
  rw [foldl_map, foldl_filter]
  refine congrArg (fun f => List.foldl f p.ownership p.sedp.remoteWriters.items) ?_
  funext t info
  unfold leave
  by_cases hgone : info.guid.guidPrefix = gone
  · by_cases hexcl : info.ownershipExclusive
    · simp [hgone, hexcl, EndpointInfo.publisher, stateFor]
    · simp [hgone, hexcl, EndpointInfo.publisher]
  · simp [hgone]

def Settled (p : Participant) : Prop := ∀ topic, (Ownership.stateFor p.ownership topic).Settled

theorem settled_stable (cfg : ParticipantConfig) :
    Stable cfg (fun _ _ => True) fun v => ∀ topic, (stateFor v.ownership topic).Settled where
  write _ _ _ _ _ _ _ h := h
  addWriter p topic typeName qos now _ _ _ h := by
    rw [view_addWriter_ownership]
    exact settled_enter h _
  addReader _ _ _ _ h := h
  closeWriter p w _ _ _ h := by
    rw [view_closeWriter_ownership]
    exact settled_leave h _
  unsubscribe _ _ h := h
  close _ h := h

variable {p : Participant}

theorem Settled.onPeerEvicted (h : p.Settled) (gone : GuidPrefix) :
    (p.onPeerEvicted gone).Settled := by
  unfold Settled
  rw [ownership_onPeerEvicted]
  exact List.foldlRecOn _ _ (motive := fun t => ∀ topic, (stateFor t topic).Settled) h
    fun t ht x _ => settled_leave ht x

theorem Settled.turn (h : p.Settled) (t : Turn) : (p.turn t).1.Settled := by
  have hsame : ∀ q : Participant, q.view = p.view → q.Settled := by
    intro q hview
    have hown : q.ownership = p.ownership := congrArg View.ownership hview
    unfold Settled
    rw [hown]
    exact h
  cases t with
  | call c => exact ((settled_stable p.config).serve trivial ⟨rfl, h⟩).2
  | act i => exact hsame _ (p.sameTables_act i).view
  | peer proxy now => exact hsame _ (p.sameTables_discoverPeer proxy now).view
  | remoteWriter info l now => exact settled_enter h info.publisher
  | evict now => exact evictExpired_induction h fun q gone hq => hq.onPeerEvicted gone
  | _ => exact h

theorem settled_run (cfg : ParticipantConfig) (antiReplay : Option ReplayGuard) (ts : List Turn) :
    (run turn (new cfg antiReplay) ts).1.Settled := by
  have hnew : (new cfg antiReplay).Settled := fun _ => OwnershipState.settled_new
  exact run_invariant (I := Settled) (fun _ t h => h.turn t) hnew ts

/-! ## Consistency -/

/-- An open exclusive writer of the participant, registered when it was created. -/
def LocallyBacked (cfg : ParticipantConfig) (writers : EntityId → Option (WriterConfig × Bool))
    (topic : Str) (g : GUID) : Prop :=
  g.guidPrefix = cfg.guidPrefix ∧ ∃ w ∈ writers g.entity,
    w.2 = false ∧ w.1.qos.ownership = .exclusive ∧ w.1.topic = topic

/-- An exclusive writer in the table of remote writers, which holds the last announcement of each.
-/
def RemotelyBacked (remoteWriters : Registry EndpointInfo.guid) (topic : Str) (g : GUID) : Prop :=
  ∃ info ∈ remoteWriters.get? g, info.ownershipExclusive = true ∧ info.topicName = topic

/-- Whoever is registered for a topic is an open exclusive writer of it or known as a remote one. -/
def Consistent (p : Participant) : Prop :=
  ∀ topic g, Ownership.Registers p.ownership topic g →
    LocallyBacked p.config p.view.writers topic g ∨
      RemotelyBacked p.sedp.remoteWriters topic g

/-- A registered remote writer is announced again only as exclusive, for the same topic. -/
def Steady (p : Participant) : Turn → Prop
  | .remoteWriter info _ _ => ∀ topic, Ownership.Registers p.ownership topic info.guid →
      LocallyBacked p.config p.view.writers topic info.guid ∨
        info.ownershipExclusive = true ∧ info.topicName = topic
  | _ => True

def FreshTurn (p : Participant) : Turn → Prop
  | .call c => p.FreshIds c
  | _ => True

instance (p : Participant) (t : Turn) : Decidable (p.FreshTurn t) := by
  unfold FreshTurn
  split <;> infer_instance

theorem consistent_stable (cfg : ParticipantConfig) (remote : Registry EndpointInfo.guid) :
    Stable cfg FreshIds fun v => ∀ topic g, Ownership.Registers v.ownership topic g →
      LocallyBacked cfg v.writers topic g ∨ RemotelyBacked remote topic g where
  write _ _ _ _ _ _ _ h := h
  addWriter p topic typeName qos now hcfg hfresh _ h := by
    let w := p.writerConfig topic qos
    intro topic' g hreg
    rw [view_addWriter_ownership, registers_enter] at hreg
    rcases hreg with ⟨hexcl, htopic, rfl⟩ | hold
    · refine .inl ⟨rfl, (w, false), Function.update_self _ _ _, rfl, ?_, htopic⟩
      exact of_decide_eq_true hexcl
    · refine (h topic' g hold).imp ?_ id
      rintro ⟨hlocal, v, hv, hopen, hv'⟩
      refine ⟨hlocal, v, ?_, hopen, hv'⟩
      have hne : g.entity ≠ w.eid := by
        intro heq
        rw [heq] at hv
        obtain ⟨x, hx, rfl⟩ := Option.map_eq_some_iff.1 hv
        have hclosed : x.closed := hfresh x hx
        rw [show x.closed = false from hopen] at hclosed
        cases hclosed
      exact (Function.update_of_ne hne _ _).trans hv
  addReader _ _ _ _ h := h
  closeWriter p w hcfg hget hopen h := by
    intro topic g hreg
    rw [view_closeWriter_ownership, registers_leave] at hreg
    obtain ⟨hold, hstays⟩ := hreg
    refine (h topic g hold).imp ?_ id
    rintro ⟨hlocal, v, hv, hvopen, hexcl, htopic⟩
    refine ⟨hlocal, v, ?_, hvopen, hexcl, htopic⟩
    have hne : g.entity ≠ w.eid := by
      intro heq
      have hw : p.view.writers w.eid = some (writerView w) := congrArg (Option.map writerView) hget
      rw [heq, hw] at hv
      obtain rfl := Option.some.inj hv
      refine hstays ⟨decide_eq_true hexcl, htopic, ?_⟩
      show GUID.mk cfg.guidPrefix w.eid = g
      rw [← hlocal, ← heq]
    exact (Function.update_of_ne hne _ _).trans hv
  unsubscribe _ _ h := h
  close _ h := h

theorem Consistent.onPeerEvicted (h : p.Consistent) (gone : GuidPrefix) :
    (p.onPeerEvicted gone).Consistent := by
  intro topic g hreg
  rw [ownership_onPeerEvicted, registers_foldl_leave] at hreg
  obtain ⟨hold, hstays⟩ := hreg
  refine (h topic g hold).imp id ?_
  rintro ⟨info, hinfo, hexcl, htopic⟩
  obtain ⟨hmem, hguid⟩ := get?_eq_some.1 hinfo
  refine ⟨info, get?_eq_some.2 ⟨mem_filter.2 ⟨hmem, ?_⟩, hguid⟩, hexcl, htopic⟩
  refine decide_eq_true fun hgone => ?_
  have hleft := hstays info.publisher
    (mem_map.2 ⟨info, mem_filter.2 ⟨hmem, decide_eq_true hgone⟩, rfl⟩)
  exact hleft ⟨hexcl, htopic, hguid⟩

theorem consistent_onRemoteWriter_iff (h : p.Consistent) (info : EndpointInfo)
    (l : Locator) (now : Int) :
    (p.onRemoteWriter info l now).Consistent ↔ p.Steady (.remoteWriter info l now) := by
  have hget := get?_insert p.sedp.remoteWriters info
  have hself : (p.sedp.remoteWriters.insert info).get? info.guid = some info :=
    (hget _).trans (if_pos rfl)
  constructor
  · intro hcons topic hreg
    have hreg' : Ownership.Registers (p.onRemoteWriter info l now).ownership topic info.guid :=
      (registers_enter (x := info.publisher)).2 (.inr hreg)
    refine (hcons topic info.guid hreg').imp id ?_
    rintro ⟨info', hinfo', hback⟩
    have hinfo : some info = some info' := hself.symm.trans hinfo'
    rw [Option.some.inj hinfo]
    exact hback
  · intro hsteady topic g hreg
    rw [ownership_onRemoteWriter, registers_enter] at hreg
    by_cases hguid : g = info.guid
    · subst hguid
      rcases hreg with ⟨hexcl, htopic, -⟩ | hold
      · exact .inr ⟨info, hself, hexcl, htopic⟩
      · exact (hsteady topic hold).imp id fun hannounced => ⟨info, hself, hannounced⟩
    · have hold := hreg.resolve_left fun hnew => hguid hnew.2.2.symm
      refine (h topic g hold).imp id ?_
      rintro ⟨info', hinfo', hback⟩
      exact ⟨info', (hget _).trans ((if_neg hguid).trans hinfo'), hback⟩

theorem consistent_turn_iff (h : p.Consistent) {t : Turn} (hfresh : p.FreshTurn t) :
    (p.turn t).1.Consistent ↔ p.Steady t := by
  have hsame : ∀ q : Participant, SameTables p q → q.config = p.config →
      q.Consistent := by
    intro q hq hcfg topic g
    have hown : q.ownership = p.ownership := congrArg View.ownership hq.view
    rw [hown, hq.sedp, hcfg, hq.view]
    exact h topic g
  cases t with
  | call c =>
    refine iff_of_true ?_ trivial
    obtain ⟨hcfg, hcons⟩ := (consistent_stable p.config p.sedp.remoteWriters).serve hfresh
      ⟨rfl, h⟩
    have hremote := (p.sameRemote_call c).remoteWriters
    intro topic g hreg
    have hback := hcons topic g hreg
    rw [← hremote, ← hcfg] at hback
    exact hback
  | act i => exact iff_of_true (hsame _ (p.sameTables_act i) (p.config_act i)) trivial
  | peer proxy now =>
    exact iff_of_true (hsame _ (p.sameTables_discoverPeer proxy now)
      (p.config_turn (.peer proxy now))) trivial
  | evict now =>
    exact iff_of_true (evictExpired_induction (J := Consistent) h
      fun q gone hq => hq.onPeerEvicted gone) trivial
  | remoteWriter info l now => exact consistent_onRemoteWriter_iff h info l now
  | _ => exact iff_of_true h trivial

/-- In a life in which no writer gets the id of one that is still open, every writer registered for
a topic is always an open exclusive writer of that topic or a remote one announced as such, exactly
if no announcement takes a registered writer to another topic or to shared ownership. -/
theorem registry_consistent_iff (cfg : ParticipantConfig) (antiReplay : Option ReplayGuard)
    (ts : List Turn)
    (hfresh : Run.Along (fun _ p t => p.FreshTurn t) turn [] (Participant.new cfg antiReplay) ts) :
    (∀ past future, ts = past ++ future →
      (Run.run turn (Participant.new cfg antiReplay) past).1.Consistent) ↔
      Run.Along (fun _ p t => p.Steady t) turn [] (Participant.new cfg antiReplay) ts := by
  have hnew : (new cfg antiReplay).Consistent := fun topic g hreg =>
    absurd hreg (not_registers_empty topic g)
  exact forall_states_iff_along (I := Consistent) (D := fun _ p t => p.FreshTurn t)
    (fun _ _ _ hp ht => consistent_turn_iff hp ht) hnew hfresh

def exclusiveInfo (g : GUID) (topic : Str) (strength : Int32) : EndpointInfo :=
  { guid := g, topicName := topic, typeName := defaultTypeName, isWriter := true,
    ownershipExclusive := true, ownershipStrength := strength }

theorem registry_consistent_same_topic :
    let p := new (.ofDefaults (copy 12 [1])) none
    let g : GUID := ⟨copy 12 [2], copy 4 [1]⟩
    let ts : List Turn :=
      [.peer (.start g.guidPrefix) 0,
        .remoteWriter (exclusiveInfo g (str "a") 1) zeroLocator 0,
        .remoteWriter (exclusiveInfo g (str "a") 2) zeroLocator 0, .evict (11 * second)]
    ∀ past future, ts = past ++ future → (run turn p past).1.Consistent := by
  intro p g ts
  have hfresh : Run.Along (fun _ p t => p.FreshTurn t) turn [] p ts := by decide +kernel
  refine (registry_consistent_iff _ none ts hfresh).2 ⟨trivial, ?_, ?_, trivial, trivial⟩
  · intro topic hreg
    exact absurd hreg (not_registers_empty topic g)
  · intro topic hreg
    rcases (registers_enter (x := (exclusiveInfo g (str "a") 1).publisher)).1 hreg with
      ⟨-, htopic, -⟩ | hold
    · exact .inr ⟨rfl, htopic⟩
    · exact absurd hold (not_registers_empty topic g)

/-- **A writer that moved stays registered.** It is announced on `a`, then on `b`, and evicted; it
is still registered for `a`. -/
theorem moved_writer_stays :
    let p := new (.ofDefaults (copy 12 [1])) none
    let g : GUID := ⟨copy 12 [2], copy 4 [1]⟩
    ¬ (run turn p
      [.peer (.start g.guidPrefix) 0,
        .remoteWriter (exclusiveInfo g (str "a") 1) zeroLocator 0,
        .remoteWriter (exclusiveInfo g (str "b") 1) zeroLocator 0,
        .evict (11 * second)]).1.Consistent := by
  intro p g hcons
  rcases hcons (str "a") g ⟨1, by decide +kernel⟩ with ⟨hlocal, -⟩ | ⟨info, hinfo, -⟩
  · revert hlocal
    decide +kernel
  · have hnone : (run turn p
      [.peer (.start g.guidPrefix) 0,
        .remoteWriter (exclusiveInfo g (str "a") 1) zeroLocator 0,
        .remoteWriter (exclusiveInfo g (str "b") 1) zeroLocator 0,
        .evict (11 * second)]).1.sedp.remoteWriters.items.length = 0 := by decide +kernel
    have hmem := (get?_eq_some.1 hinfo).1
    rw [eq_nil_of_length_eq_zero hnone] at hmem
    cases hmem

end Participant

end GoDDS
