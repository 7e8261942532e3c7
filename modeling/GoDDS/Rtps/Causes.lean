import GoDDS.Rtps.Life

/-!
# Where effects come from
-/

namespace GoDDS

open ByteCodec Go Security List

variable {e : Effect} {now : Int} {p : Participant} {t : Turn}

namespace Participant

inductive Causes (p : Participant) : Turn → Effect → Prop
  | written {w : Writer} {payload rnd : Bytes} {now : Int} {e : Effect}
      (hget : p.writers.get? w.eid = some w) (h : e ∈ (p.write w payload rnd now).effects) :
      Causes p (.call (.write w.eid payload rnd now)) e
  | acted {i : Input} {e : Effect} (h : e ∈ (p.act i).2) : Causes p (.act i) e
  | sent {t : Turn} {e : Effect} (h : sends e = true) : Causes p t e
  | joined {c : Call} {reader : EntityId} {origin : Publication} {sample : Sample} {queued : Bool} :
      Causes p (.call c) (.lateJoin reader origin sample queued)
  | liveliness {t : Turn} {g : GUID} {event : LivelinessEvent} : Causes p t (.liveliness g event)
  | polled {eid : EntityId} {order : List GUID} {now : Int} {e : Effect}
      (h : e ∈ (p.checkLiveliness eid order now).2) :
      Causes p (.call (.checkLiveliness eid order now)) e

theorem causes_livelinessEffects {cfg : ParticipantConfig} {pre : GuidPrefix}
    {event : LivelinessEvent} (h : e ∈ livelinessEffects cfg pre event) : Causes p t e := by
  unfold livelinessEffects at h
  split_ifs at h
  · obtain rfl := mem_singleton.1 h
    exact .liveliness
  · cases h

theorem lateJoin_effects {qos : QoS} {r : Reader} (h : e ∈ (p.lateJoin qos r).2) :
    ∃ origin sample queued, e = .lateJoin r.eid origin sample queued := by
  unfold lateJoin at h
  split_ifs at h
  · cases hkept : p.keptFor r.topic with
    | none => simp [hkept] at h
    | some kept =>
      rw [hkept] at h
      change e ∈ (handOver kept r).2 at h
      unfold handOver at h
      split_ifs at h
      · cases h
      all_goals exact ⟨_, _, _, mem_singleton.1 h⟩
  · cases h

theorem causes_newSubscriberLocked {topic typeName : Str} {qos : QoS} {cfg : SubscriberConfig}
    {cf : Option ContentFilterSpec} {c : Call}
    (h : e ∈ (p.newSubscriberLocked topic typeName qos cfg cf now).effects) :
    Causes p (.call c) e := by
  rcases mem_append.1 h with h | h
  · exact .sent (sends_announce h)
  · obtain ⟨origin, sample, queued, rfl⟩ := lateJoin_effects h
    exact .joined

theorem causes_call {c : Call} (h : e ∈ (p.call c).2) : Causes p (.call c) e := by
  obtain ⟨q, effs, hcall, hcalled⟩ := p.call_cases c
  rw [hcall] at h
  cases hcalled with
  | writerAdded =>
    have hmem : e ∈ (announceWriter _ _ none).2 := h
    exact .sent (sends_announce hmem)
  | readerAdded => exact causes_newSubscriberLocked h
  | written hget => exact .written hget h
  | heartbeat => exact .sent (sends_sendHeartbeat h)
  | asserted _ _ hsends => exact .sent (hsends e h)
  | polled => exact .polled (congrArg Prod.snd hcall ▸ h)
  | _ => cases h

theorem causes_discoverPeer {proxy : ParticipantProxy} (h : e ∈ (p.discoverPeer proxy now).2) :
    Causes p t e := by
  have hrun : ∀ (w r : EntityId) (q : Participant) (infos : List EndpointInfo) (x : ParticipantProxy),
      ∀ e ∈ (Run.run (fun q info => announce w r q info (some x)) q infos).2, sends e :=
    fun w r q infos x => Run.run_outputs (I := fun _ => True) (P := fun e => sends e)
      (fun _ _ _ => trivial) (fun _ _ _ e he => sends_announce he) trivial infos
  rcases mem_append.1 h with h | h
  · change e ∈ (if _ then livelinessEffects _ _ _ else []) at h
    split_ifs at h
    · exact causes_livelinessEffects h
    · cases h
  · rcases mem_append.1 h with h | h
    all_goals exact .sent (hrun _ _ _ _ _ e h)

/-- An effect of a turn is one of a write, one of an action of a packet, a message that has nothing
to do with samples, a kept sample handed to a new reader, a call of the callback for participants,
or a report of a poll. -/
theorem causes_turn (h : e ∈ (p.turn t).2) : Causes p t e := by
  cases t with
  | call c => exact causes_call h
  | act i => exact .acted h
  | peer proxy now => exact causes_discoverPeer h
  | announce =>
    obtain rfl := mem_singleton.1 h
    exact .sent rfl
  | evict now =>
    exact Run.run_outputs (I := fun _ => True) (P := fun e => Causes p (.evict now) e)
      (fun _ _ _ => trivial) (fun _ _ _ _ he => causes_livelinessEffects he) trivial _ e h
  | _ => cases h

theorem not_dispatch_checkLiveliness {eid reader : EntityId} {order : List GUID} {g : GUID}
    {origin : Origin} {sample : Sample} {queued : Bool} :
    .dispatch reader g origin sample queued ∉ (p.checkLiveliness eid order now).2 := by
  intro h
  unfold checkLiveliness at h
  split at h
  · cases h
  · split_ifs at h
    · cases h
    · obtain ⟨x, -, hx⟩ := List.mem_map.1 h
      cases hx

theorem act_of_dispatch {eid : EntityId} {g : GUID} {origin : Origin} {sample : Sample}
    {queued : Bool} (h : .dispatch eid g origin sample queued ∈ (p.turn t).2)
    (hremote : g.guidPrefix ≠ p.guidPrefix) : ∃ i, t = .act i := by
  generalize he : Effect.dispatch eid g origin sample queued = e at h
  cases causes_turn h with
  | written hget h =>
    subst he
    rcases write_effects h with hsends | ⟨r, -, ⟨origin', sample', queued', heq⟩, -⟩
    · cases hsends
    · obtain ⟨-, rfl, -⟩ := Effect.dispatch.inj heq
      exact absurd rfl hremote
  | acted h => exact ⟨_, rfl⟩
  | sent hsends =>
    subst he
    cases hsends
  | joined => cases he
  | liveliness => cases he
  | polled h =>
    subst he
    exact absurd h not_dispatch_checkLiveliness

end Participant

end GoDDS
