import GoDDS.Rtps.ReceiveSpec
import GoDDS.Rtps.Wire

/-!
# Replay protection of received samples

The guard is keyed by the sequence number alone, and the seal of the payload covers neither number
nor timestamp nor writer.
-/

namespace GoDDS

open ByteCodec Go Security List Run Effect FixedBytes

def replayLog (effs : List Effect) : List (GUID × LogEntry) :=
  effs.filterMap fun e =>
    match e with
    | .replayCheck g sn ts verdict => some (g, ⟨⟨sn, ts⟩, verdict⟩)
    | _ => none

theorem replayLog_append (a b : List Effect) : replayLog (a ++ b) = replayLog a ++ replayLog b :=
  filterMap_append

variable {payload : Bytes} {eid : EntityId} {g : GUID} {ts w : Int} {a b effs : List Effect}
  {past : List Input} {p : Participant} {guard : ReplayGuard} {sn : UInt64} {v : Verdict}

theorem mem_replayLog {e : LogEntry} :
    (g, e) ∈ replayLog effs ↔ replayCheck g e.call.seq e.call.ts e.verdict ∈ effs := by
  unfold replayLog
  rw [mem_filterMap]
  constructor
  · intro h
    obtain ⟨eff, heff, hsome⟩ := h
    cases eff with
    | replayCheck source sn ts verdict =>
      obtain ⟨rfl, rfl⟩ := Prod.mk.inj (Option.some.inj hsome)
      exact heff
    | _ => cases hsome
  · intro h
    exact ⟨_, h, rfl⟩

def guardLog (effs : List Effect) : List LogEntry := (replayLog effs).map Prod.snd

theorem guardLog_append (a b : List Effect) : guardLog (a ++ b) = guardLog a ++ guardLog b := by
  rw [guardLog, replayLog_append, map_append]
  rfl

theorem mem_guardLog {e : LogEntry} (h : e ∈ guardLog effs) :
    ∃ g, replayCheck g e.call.seq e.call.ts e.verdict ∈ effs := by
  obtain ⟨⟨g, e'⟩, hmem, rfl⟩ := List.mem_map.1 h
  exact ⟨g, mem_replayLog.1 hmem⟩

/-! ## What an action does with the guard -/

namespace Participant

def PassesOn (g : GUID) (sn : UInt64) (payload : Bytes) (ts : Int) (v : Verdict) (e : Effect) :
    Prop :=
  e.isUnicast = true ∨ v = .accepted ∧ ∃ eid sample queued,
    e = .dispatch eid g ⟨sn, none⟩ sample queued ∧ sample.payload = payload ∧ sample.timestamp = ts

/-- An action does not use the guard, and then hands nothing over; or for one check, with which its
effects begin. -/
inductive GuardMove (p : Participant) (guard : ReplayGuard) (i : Input) : Prop
  | quiet (hstate : (p.act i).1.antiReplay = some guard)
      (heffs : ∀ e ∈ (p.act i).2, e.isUnicast = true)
  | checked (g : GUID) (sn : UInt64) (payload : Bytes) (ts : Int) (rest : List Effect)
      (ha : i.action = .data g sn payload ts)
      (hstate : (p.act i).1.antiReplay = some (guard.check sn ts).1)
      (heffs : (p.act i).2 = .replayCheck g sn ts (guard.check sn ts).2 :: rest)
      (hrest : ∀ e ∈ rest, PassesOn g sn payload ts (guard.check sn ts).2 e)

theorem checkReplay_eq (h : p.antiReplay = some guard) (g : GUID) (sn : UInt64) (ts : Int) :
    (p.checkReplay g sn ts).1.antiReplay = some (guard.check sn ts).1 ∧
      (p.checkReplay g sn ts).2.1 = [.replayCheck g sn ts (guard.check sn ts).2] ∧
      ((p.checkReplay g sn ts).2.2 ↔ (guard.check sn ts).2 = .accepted) := by
  rw [checkReplay, h]
  exact ⟨rfl, rfl, decide_eq_true_iff⟩

theorem guardMove_data (hstuck : p.stuck = false) (h : p.antiReplay = some guard) (g : GUID)
    (sn : UInt64) (payload : Bytes) (ts : Int) (src : Option UDPAddr) (now : Int) :
    ∃ rest, (p.act ⟨.data g sn payload ts, src, now⟩).1.antiReplay = some (guard.check sn ts).1 ∧
      (p.act ⟨.data g sn payload ts, src, now⟩).2 =
        .replayCheck g sn ts (guard.check sn ts).2 :: rest ∧
      ∀ e ∈ rest, PassesOn g sn payload ts (guard.check sn ts).2 e := by
  obtain ⟨hguard, hchk, hflag⟩ := checkReplay_eq h g sn ts
  have htold : ∀ (q : Participant), ∀ e ∈ (q.notifyReliableReaders g sn src).2,
      PassesOn g sn payload ts (guard.check sn ts).2 e := by
    intro q e he
    obtain ⟨r, -, he⟩ := mem_flatMap.1 he
    exact .inl (notify_effects he).isUnicast
  rw [act_data hstuck]
  rcases handleOpened_cases p g sn payload src ts now with
    ⟨-, heq⟩ | ⟨-, -, heq⟩ | ⟨hpass, -, heq⟩
  · rw [heq]
    exact ⟨[], hguard, hchk, fun e he => absurd he not_mem_nil⟩
  · rw [heq, hchk, singleton_append]
    exact ⟨_, hguard, rfl, htold _⟩
  · rw [heq, hchk, singleton_append]
    refine ⟨_, hguard, rfl, ?_⟩
    intro e he
    rcases mem_append.1 he with he | he
    · exact htold _ e he
    · obtain ⟨r, -, ⟨queued, hdisp⟩, -⟩ := dispatchToReaders_effects he
      exact .inr ⟨hflag.1 hpass, _, _, queued, hdisp, rfl, rfl⟩

theorem guardMove_act (h : p.antiReplay = some guard) (i : Input) : GuardMove p guard i := by
  cases hstuck : p.stuck with
  | true =>
    apply GuardMove.quiet
    · rw [act_of_stuck hstuck]
      exact h
    · rw [act_of_stuck hstuck]
      exact fun e he => absurd he not_mem_nil
  | false =>
    obtain ⟨a, src, now⟩ := i
    cases a with
    | data g sn payload ts =>
      obtain ⟨rest, hstate, heffs, hrest⟩ := guardMove_data hstuck h g sn payload ts src now
      exact .checked g sn payload ts rest rfl hstate heffs hrest
    | heartbeat g hb =>
      apply GuardMove.quiet
      · rw [act_heartbeat hstuck]
        exact h
      · intro e he
        rw [act_heartbeat hstuck] at he
        obtain ⟨r, -, he⟩ := mem_flatMap.1 he
        exact (onHeartbeat_effects he).isUnicast
    | ackNack g an =>
      apply GuardMove.quiet
      · rw [act_ackNack hstuck]
        unfold handleAckNack
        split
        · exact h
        · split_ifs <;> exact h
      · intro e he
        rw [act_ackNack hstuck] at he
        exact isUnicast_handleAckNack he

theorem replayLog_eq_nil (h : ∀ e ∈ effs, ∀ g sn ts v, e ≠ .replayCheck g sn ts v) :
    replayLog effs = [] := by
  apply eq_nil_iff_forall_not_mem.2
  intro ge hmem
  exact h _ (mem_replayLog.1 hmem) _ _ _ _ rfl

theorem replayLog_of_unicast (h : ∀ e ∈ effs, e.isUnicast) : replayLog effs = [] := by
  apply replayLog_eq_nil
  intro e he g sn ts v heq
  rw [heq] at he
  exact absurd (h _ he) Bool.false_ne_true

theorem replayLog_of_passesOn (h : ∀ e ∈ effs, PassesOn g sn payload ts v e) :
    replayLog effs = [] := by
  apply replayLog_eq_nil
  intro e he g' sn' ts' v' heq
  rw [heq] at he
  rcases h _ he with hu | ⟨-, eid, sample, queued, hdisp, -⟩
  · exact absurd hu Bool.false_ne_true
  · cases hdisp

/-- The guard has the window `w` and remembers what the checks among the effects say, each made for
a DATA input. -/
structure Guarded (w : Int) (p : Participant) (past : List Input) (effs : List Effect) : Prop where
  guard : ∃ guard, p.antiReplay = some guard ∧ guard.window = w ∧ Tracks guard (guardLog effs)
  separated : Separated w (guardLog effs)
  received : ∀ g e, (g, e) ∈ replayLog effs →
    ∃ i ∈ past, ∃ payload, i.action = .data g e.call.seq payload e.call.ts

theorem guarded_act (h : Guarded w p past effs) (i : Input) :
    Guarded w (p.act i).1 (past ++ [i]) (effs ++ (p.act i).2) := by
  obtain ⟨guard, hguard, hwin, htracks⟩ := h.guard
  have hreceived : ∀ g e, (g, e) ∈ replayLog effs →
      ∃ j ∈ past ++ [i], ∃ payload, j.action = .data g e.call.seq payload e.call.ts := by
    intro g e he
    obtain ⟨j, hj, hact⟩ := h.received g e he
    exact ⟨j, mem_append_left _ hj, hact⟩
  cases guardMove_act hguard i with
  | quiet hstate heffs =>
    have hnil := replayLog_of_unicast heffs
    have hlog : guardLog (effs ++ (p.act i).2) = guardLog effs := by
      rw [guardLog_append, guardLog, guardLog, hnil, map_nil, append_nil]
    refine ⟨⟨guard, hstate, hwin, ?_⟩, ?_, ?_⟩
    · rw [hlog]
      exact htracks
    · rw [hlog]
      exact h.separated
    · rw [replayLog_append, hnil, append_nil]
      exact hreceived
  | checked g sn payload ts rest ha hstate heffs hrest =>
    have hlog : replayLog (p.act i).2 = [(g, ⟨⟨sn, ts⟩, (guard.check sn ts).2⟩)] := by
      rw [heffs]
      exact congrArg (_ :: ·) (replayLog_of_passesOn hrest)
    have hlog' : guardLog (effs ++ (p.act i).2) =
        guardLog effs ++ [⟨⟨sn, ts⟩, (guard.check sn ts).2⟩] := by
      rw [guardLog_append, guardLog, guardLog, hlog]
      rfl
    refine ⟨⟨(guard.check sn ts).1, hstate, (guard.check_window sn ts).trans hwin, ?_⟩, ?_, ?_⟩
    · rw [hlog']
      exact tracks_check htracks ⟨sn, ts⟩
    · rw [hlog', ← hwin]
      exact separated_check htracks (hwin ▸ h.separated) ⟨sn, ts⟩
    · intro g' e he
      rw [replayLog_append, hlog] at he
      rcases mem_append.1 he with he | he
      · exact hreceived g' e he
      · obtain ⟨rfl, rfl⟩ := Prod.mk.inj (mem_singleton.1 he)
        exact ⟨i, mem_append_right _ (mem_singleton_self i), payload, ha⟩

theorem guarded_run (h : p.antiReplay = some (newReplayGuard w)) (is : List Input) :
    Guarded (newReplayGuard w).window (run act p is).1 is (run act p is).2 := by
  refine run_induction_always
    (J := fun q past effs => Guarded (newReplayGuard w).window q past effs) ?_ ?_ is
  · intro q i past effs hq
    exact guarded_act hq i
  · refine ⟨⟨newReplayGuard w, h, rfl, tracks_new w⟩, separated_nil _, ?_⟩
    intro g e he
    cases he

/-! ## Fresh samples -/

/-- An accepted check of number `sn` at `t` for writer `g`, with no later check out of its
window. -/
def RemembersFrom (w : Int) (log : List (GUID × LogEntry)) (g : GUID) (sn : UInt64) (t : Int) :
    Prop :=
  ∃ older newer, log = older ++ (g, ⟨⟨sn, t⟩, .accepted⟩) :: newer ∧
    ∀ e ∈ newer, e.2.call.ts ≤ t + w

theorem remembers_map_snd {log : List (GUID × LogEntry)} {t : Int} :
    Remembers w (log.map Prod.snd) sn t ↔ ∃ g, RemembersFrom w log g sn t := by
  constructor
  · intro h
    obtain ⟨older, newer, hlog, hnewer⟩ := h
    obtain ⟨older', tail, rfl, rfl, htail⟩ := map_eq_append_iff.1 hlog
    obtain ⟨⟨g, e⟩, newer', rfl, rfl, rfl⟩ := map_eq_cons_iff.1 htail
    refine ⟨g, older', newer', rfl, ?_⟩
    intro e he
    exact hnewer e.2 (List.mem_map_of_mem he)
  · intro h
    obtain ⟨g, older, newer, rfl, hnewer⟩ := h
    refine ⟨older.map Prod.snd, newer.map Prod.snd, by simp, ?_⟩
    intro e he
    obtain ⟨e', he', rfl⟩ := List.mem_map.1 he
    exact hnewer e' he'

/-- A sample whose writer and number have not been received before passes the check exactly if no
other writer's sample of that number is still remembered. -/
theorem fresh_sample_accepted_iff (p : Participant) (w : Int) (pkts : List Packet)
    {before after : List Input} {g : GUID} {sn : UInt64} {payload : Bytes} {ts now : Int}
    {src : Option UDPAddr} (hguard : p.antiReplay = some (newReplayGuard w))
    (hpkts : pkts.flatMap (inputsOf p.config) =
      before ++ ⟨.data g sn payload ts, src, now⟩ :: after)
    (hfresh : ∀ i ∈ before, ∀ payload' ts', i.action ≠ .data g sn payload' ts') :
    let q := (run act p before).1
    let effs := (q.act ⟨.data g sn payload ts, src, now⟩).2
    (∃ later, (p.receive pkts).2 = (run act p before).2 ++ (effs ++ later)) ∧
      ((∃ rest, effs = .replayCheck g sn ts .accepted :: rest) ↔
        q.stuck = false ∧ ¬ ∃ g' t, g' ≠ g ∧ ts ≤ t + (newReplayGuard w).window ∧
          RemembersFrom (newReplayGuard w).window (replayLog (run act p before).2) g' sn t) := by
  intro q effs
  have hrun := guarded_run hguard before
  obtain ⟨guard, hq, hwin, htracks⟩ := hrun.guard
  refine ⟨⟨_, by rw [receive_eq_run, hpkts, run_append, run_cons]⟩, ?_⟩
  cases hstuck : q.stuck with
  | true =>
    have hnil : effs = [] := congrArg Prod.snd (act_of_stuck hstuck _)
    simp [hnil]
  | false =>
    obtain ⟨rest, -, heffs, -⟩ := guardMove_data hstuck hq g sn payload ts src now
    change effs = _ at heffs
    have hverdict : (∃ rest, effs = .replayCheck g sn ts .accepted :: rest) ↔
        ¬ (guard.check sn ts).2 = .errReplay := by
      rw [heffs]
      cases (guard.check sn ts).2 <;> simp
    rw [hverdict, htracks.check_errReplay_iff, hwin, eq_self_iff_true, true_and, not_iff_not]
    constructor
    · intro h
      obtain ⟨t, hrem, hle⟩ := h
      obtain ⟨g', hfrom⟩ := remembers_map_snd.1 hrem
      refine ⟨g', t, ?_, hle, hfrom⟩
      -- a remembered sample of the same writer would have been received before
      intro heq
      subst heq
      obtain ⟨older, newer, hlog, -⟩ := hfrom
      obtain ⟨i, hi, payload', hact⟩ := hrun.received g' ⟨⟨sn, t⟩, .accepted⟩ (by rw [hlog]; simp)
      exact hfresh i hi payload' t hact
    · intro h
      obtain ⟨g', t, -, hle, hfrom⟩ := h
      exact ⟨t, remembers_map_snd.2 ⟨g', hfrom⟩, hle⟩

def guardedBy (own : GuidPrefix) (g₁ g₂ : GUID) : Participant :=
  { Participant.new (ParticipantConfig.ofDefaults own) (some (newReplayGuard second)) with
    readers := Registry.empty.insert
      { Reader.new (ReaderConfig.ofDefaults (str "t") (entityIdForReader 1) false) with
        sources := {g₁, g₂} } }

theorem fresh_sample_accepted_two :
    let g₁ : GUID := ⟨copy 12 [2], entityIdForWriter 1⟩
    let g₂ : GUID := ⟨copy 12 [3], entityIdForWriter 1⟩
    let p := guardedBy (copy 12 [1]) g₁ g₂
    let before : List Input := [⟨.data g₁ 1 [7] (wireTime 0 0), none, 0⟩]
    ∃ rest, ((run act p before).1.act ⟨.data g₂ 2 [8] (wireTime 0 0), none, 0⟩).2 =
      .replayCheck g₂ 2 (wireTime 0 0) .accepted :: rest := by
  intro g₁ g₂ p before
  have hpkts : [⟨dataMessage g₁.guidPrefix g₁.entity (u64ToSN 1) 0 [7], none, 0⟩,
      ⟨dataMessage g₂.guidPrefix g₂.entity (u64ToSN 2) 0 [8], none, 0⟩].flatMap
        (inputsOf p.config) =
      before ++ ⟨.data g₂ 2 [8] (wireTime 0 0), none, 0⟩ :: [] := by decide +kernel
  have hlog : replayLog (run act p before).2 = [(g₁, ⟨⟨1, wireTime 0 0⟩, .accepted⟩)] := by
    decide +kernel
  refine (fresh_sample_accepted_iff p second _ rfl hpkts ?_).2.2 ⟨by decide +kernel, ?_⟩
  · intro i hi payload' ts' hact
    rw [mem_singleton.1 hi] at hact
    obtain ⟨-, hsn, -⟩ := Action.data.inj hact
    exact absurd hsn (by decide)
  · intro h
    obtain ⟨g', t, -, -, older, newer, heq, -⟩ := h
    rw [hlog] at heq
    have hmem : (g', (⟨⟨2, t⟩, .accepted⟩ : LogEntry)) ∈
        [(g₁, (⟨⟨1, wireTime 0 0⟩, .accepted⟩ : LogEntry))] := by
      rw [heq]
      simp
    have heq' := mem_singleton.1 hmem
    simp at heq'

/-- Two writers send their samples number 1; the second one is taken for a replay of the first. -/
theorem fresh_sample_rejected :
    let g₁ : GUID := ⟨copy 12 [2], entityIdForWriter 1⟩
    let g₂ : GUID := ⟨copy 12 [3], entityIdForWriter 1⟩
    let p := guardedBy (copy 12 [1]) g₁ g₂
    let effs := (p.receive [⟨dataMessage g₁.guidPrefix g₁.entity (u64ToSN 1) 0 [7], none, 0⟩,
      ⟨dataMessage g₂.guidPrefix g₂.entity (u64ToSN 1) 0 [8], none, 0⟩]).2
    (replayLog effs).map (fun e => (e.1, e.2.call.seq, e.2.verdict)) =
        [(g₁, 1, .accepted), (g₂, 1, .errReplay)] ∧
      (effs.filter (isDispatchTo (entityIdForReader 1))).length = 1 := by decide +kernel

/-! ## Sealed payloads -/

structure Sealed where
  writer : GUID
  rnd : Bytes
  plaintext : Bytes

def Sealed.bytes (plugin : SecurityPlugin) (h : Sealed) : Option Bytes :=
  plugin.sealPayload h.rnd h.plaintext

/-- The plugin opens what honest writers have sealed to what they sealed, and opens nothing else. -/
structure Unforgeable (plugin : SecurityPlugin) (honest : List Sealed) : Prop where
  inverse : ∀ h ∈ honest, ∀ c, h.bytes plugin = some c → plugin.openPayload c = some h.plaintext
  genuine : ∀ c payload, plugin.openPayload c = some payload →
    ∃ h ∈ honest, h.bytes plugin = some c

theorem opened_of_mem_inputsOf {cfg : ParticipantConfig} {pkt : Packet} {i : Input}
    (h : i ∈ inputsOf cfg pkt) (ha : i.action = .data g sn payload ts) :
    ∃ c, openPayload cfg c = some payload := by
  unfold inputsOf at h
  cases hsubs : submessagesOf cfg.guidPrefix pkt.data with
  | none =>
    rw [hsubs] at h
    cases h
  | some hdr =>
    rw [hsubs] at h
    obtain ⟨s, -, ts', hact⟩ := mem_inputsOfSubs h
    rw [ha] at hact
    obtain ⟨ds, wrapped, raw, -, -, -, hopen⟩ := openData_eq_some (openData_of_actionOf hact).2
    exact ⟨raw, hopen⟩

/-- Each sample handed over comes from a DATA input whose number and timestamp were accepted right
before, and there is a check between two for one reader. -/
structure HandsOver (past : List Input) (effs : List Effect) : Prop where
  received : ∀ eid g o s queued, Effect.dispatch eid g o s queued ∈ effs →
    ∃ i ∈ past, i.action = .data g o.sn s.payload s.timestamp
  accepted : ∀ a b eid g o s queued, effs = a ++ .dispatch eid g o s queued :: b →
    ∃ older, guardLog a = older ++ [⟨⟨o.sn, s.timestamp⟩, .accepted⟩]
  apart : ∀ a b c eid g₁ o₁ s₁ q₁ g₂ o₂ s₂ q₂,
    effs = a ++ .dispatch eid g₁ o₁ s₁ q₁ :: (b ++ .dispatch eid g₂ o₂ s₂ q₂ :: c) → guardLog b ≠ []

theorem dispatch_of_passesOn {g' : GUID} {o : Origin} {s : Sample} {queued : Bool}
    (h : PassesOn g sn payload ts v (.dispatch eid g' o s queued)) :
    v = .accepted ∧ g' = g ∧ o.sn = sn ∧ s.payload = payload ∧ s.timestamp = ts := by
  rcases h with hu | ⟨hacc, eid', s', queued', heq, hpay, hts⟩
  · exact absurd hu Bool.false_ne_true
  · cases heq
    exact ⟨hacc, rfl, rfl, hpay, hts⟩

theorem act_not_twice {i : Input} {c : List Effect} {d₁ d₂ : Effect}
    (h₁ : d₁.isDispatchTo eid) (h₂ : d₂.isDispatchTo eid) :
    (p.act i).2 ≠ a ++ d₁ :: (b ++ d₂ :: c) := by
  intro heq
  have hlen : ((p.act i).2.filter (isDispatchTo eid)).length ≤ 1 := by
    rcases act_dispatches p i eid with hnil | ⟨r, r', g, sn, payload, ts, queued, -, -, -, -, -, -, h⟩
    · rw [hnil]
      exact Nat.zero_le 1
    · rw [h]
      exact le_rfl
  rw [heq] at hlen
  simp only [filter_append, filter_cons_of_pos h₁, filter_cons_of_pos h₂,
    length_append, length_cons] at hlen
  omega

theorem guardLog_eq_nil (h : ∀ e ∈ effs, PassesOn g sn payload ts v e) : guardLog effs = [] := by
  rw [guardLog, replayLog_of_passesOn h]
  rfl

theorem after_check {rest : List Effect} {g' : GUID} {o : Origin} {s : Sample} {queued : Bool}
    (h : replayCheck g sn ts v :: rest = a ++ .dispatch eid g' o s queued :: b) :
    ∃ a', a = .replayCheck g sn ts v :: a' ∧ rest = a' ++ .dispatch eid g' o s queued :: b := by
  cases a with
  | nil => cases h
  | cons e a' =>
    obtain ⟨rfl, hrest⟩ := List.cons.inj h
    exact ⟨a', rfl, hrest⟩

theorem HandsOver.append (h : HandsOver past effs) {i : Input} {new : List Effect}
    (hreceived : ∀ eid g o s queued, dispatch eid g o s queued ∈ new →
      i.action = .data g o.sn s.payload s.timestamp)
    (haccepted : ∀ a b eid g o s queued, new = a ++ .dispatch eid g o s queued :: b →
      ∃ older, guardLog (effs ++ a) = older ++ [⟨⟨o.sn, s.timestamp⟩, .accepted⟩])
    (hapart : ∀ a b c d eid g₁ o₁ s₁ q₁ g₂ o₂ s₂ q₂, new = d ++ .dispatch eid g₂ o₂ s₂ q₂ :: c →
      effs ++ d = a ++ .dispatch eid g₁ o₁ s₁ q₁ :: b → guardLog b ≠ []) :
    HandsOver (past ++ [i]) (effs ++ new) where
  received eid g o s queued he := by
    rcases mem_append.1 he with he | he
    · obtain ⟨j, hj, hact⟩ := h.received eid g o s queued he
      exact ⟨j, mem_append_left _ hj, hact⟩
    · exact ⟨i, mem_append_right _ (mem_singleton_self i), hreceived _ _ _ _ _ he⟩
  accepted a b eid g o s queued heq := by
    rcases append_eq_append_cons heq with ⟨b', hold, -⟩ | ⟨a', rfl, hnew⟩
    · exact h.accepted a b' eid g o s queued hold
    · exact haccepted a' b eid g o s queued hnew
  apart a b c eid g₁ o₁ s₁ q₁ g₂ o₂ s₂ q₂ heq := by
    rw [← cons_append, ← append_assoc] at heq
    rcases append_eq_append_cons heq with ⟨c', hold, -⟩ | ⟨d, hpre, hnew⟩
    · rw [append_assoc, cons_append] at hold
      exact h.apart a b c' eid g₁ o₁ s₁ q₁ g₂ o₂ s₂ q₂ hold
    · exact hapart a b c d eid g₁ o₁ s₁ q₁ g₂ o₂ s₂ q₂ hnew hpre.symm

theorem handsOver_act (hguard : p.antiReplay = some guard) (h : HandsOver past effs) (i : Input) :
    HandsOver (past ++ [i]) (effs ++ (p.act i).2) := by
  cases guardMove_act hguard i with
  | quiet hstate heffs =>
    have hno : ∀ {eid g o s queued}, .dispatch eid g o s queued ∉ (p.act i).2 := fun he =>
      absurd (heffs _ he) Bool.false_ne_true
    have hsplit : ∀ {a b eid g o s queued}, (p.act i).2 ≠ a ++ .dispatch eid g o s queued :: b :=
      fun heq => hno (heq ▸ mem_append_right _ mem_cons_self)
    exact h.append (fun _ _ _ _ _ he => absurd he hno) (fun _ _ _ _ _ _ _ heq => absurd heq hsplit)
      fun _ _ _ _ _ _ _ _ _ _ _ _ _ heq => absurd heq hsplit
  | checked g sn payload ts rest ha hstate heffs hrest =>
    rw [heffs]
    refine h.append ?_ ?_ ?_
    · intro eid g' o s queued he
      rcases mem_cons.1 he with he | he
      · cases he
      · obtain ⟨-, rfl, rfl, rfl, rfl⟩ := dispatch_of_passesOn (hrest _ he)
        exact ha
    · intro a b eid g' o s queued hnew
      obtain ⟨a', rfl, hsplit⟩ := after_check hnew
      have hd := hrest (.dispatch eid g' o s queued) (by rw [hsplit]; simp)
      obtain ⟨hacc, -, hsn, -, hts⟩ := dispatch_of_passesOn hd
      have hnil : guardLog a' = [] := guardLog_eq_nil fun e he =>
        hrest e (by rw [hsplit]; exact mem_append_left _ he)
      refine ⟨guardLog effs, ?_⟩
      rw [guardLog_append, hsn, hts, ← hacc]
      show _ ++ (⟨⟨sn, ts⟩, _⟩ :: guardLog a') = _
      rw [hnil]
    · intro a b c d eid g₁ o₁ s₁ q₁ g₂ o₂ s₂ q₂ hnew hpre
      obtain ⟨a', rfl, hsplit⟩ := after_check hnew
      rcases append_eq_append_cons hpre with ⟨b', -, rfl⟩ | ⟨a₂, -, hboth⟩
      · -- the first sample is an old one: the check of this action is in between
        rw [guardLog_append]
        show _ ++ (⟨⟨sn, ts⟩, _⟩ :: guardLog a') ≠ []
        simp
      · obtain ⟨a₃, rfl, hboth'⟩ := after_check hboth
        have hself : ∀ g o s q, (dispatch eid g o s q).isDispatchTo eid := by
          simp [isDispatchTo]
        refine absurd (?_ : (p.act i).2 = (.replayCheck g sn ts (guard.check sn ts).2 :: a₃) ++
          .dispatch eid g₁ o₁ s₁ q₁ :: (b ++ .dispatch eid g₂ o₂ s₂ q₂ :: c))
          (act_not_twice (hself g₁ o₁ s₁ q₁) (hself g₂ o₂ s₂ q₂))
        rw [heffs, hsplit, hboth']
        simp

theorem handsOver_run (h : p.antiReplay = some (newReplayGuard w)) (is : List Input) :
    HandsOver is (run act p is).2 := by
  have hrun : Guarded (newReplayGuard w).window (run act p is).1 is (run act p is).2 ∧
      HandsOver is (run act p is).2 := by
    refine run_induction_always (J := fun q past effs =>
      Guarded (newReplayGuard w).window q past effs ∧ HandsOver past effs) ?_ ⟨?_, ?_⟩ is
    · intro q i past effs ⟨hq, hover⟩
      obtain ⟨guard, hguard, -⟩ := hq.guard
      exact ⟨guarded_act hq i, handsOver_act hguard hover i⟩
    · exact guarded_run h []
    · refine ⟨?_, ?_, ?_⟩
      · intro eid g o s queued he
        cases he
      · intro a b eid g o s queued heq
        simp at heq
      · intro a b c eid g₁ o₁ s₁ q₁ g₂ o₂ s₂ q₂ heq
        simp at heq
  exact hrun.2

theorem separated_samples (hsep : Separated w (guardLog effs)) (h : HandsOver past effs)
    {c : List Effect} {g₁ g₂ : GUID} {o₁ o₂ : Origin} {s₁ s₂ : Sample} {q₁ q₂ : Bool}
    (heq : effs = a ++ .dispatch eid g₁ o₁ s₁ q₁ :: (b ++ .dispatch eid g₂ o₂ s₂ q₂ :: c))
    (hsn : o₁.sn = o₂.sn) : ∃ g sn ts v, replayCheck g sn ts v ∈ b ∧ s₁.timestamp + w < ts := by
  obtain ⟨older, hfirst⟩ := h.accepted _ _ _ _ _ _ _ heq
  have heq' : effs = (a ++ .dispatch eid g₁ o₁ s₁ q₁ :: b) ++ .dispatch eid g₂ o₂ s₂ q₂ :: c := by
    rw [heq]
    simp
  obtain ⟨older₂, hsecond⟩ := h.accepted _ _ _ _ _ _ _ heq'
  have hmid : ∃ mid, guardLog b = mid ++ [⟨⟨o₁.sn, s₂.timestamp⟩, .accepted⟩] := by
    rw [guardLog_append] at hsecond
    change guardLog a ++ guardLog b = _ at hsecond
    rcases eq_nil_or_concat (guardLog b) with hnil | ⟨mid, e, hb⟩
    · exact absurd hnil (h.apart _ _ _ _ _ _ _ _ _ _ _ _ heq)
    · rw [concat_eq_append] at hb
      refine ⟨mid, ?_⟩
      rw [hb, ← append_assoc] at hsecond
      rw [hb, (append_inj' hsecond rfl).2, hsn]
  obtain ⟨mid, hb⟩ := hmid
  have hlog : guardLog effs = older ++ ⟨⟨o₁.sn, s₁.timestamp⟩, .accepted⟩ ::
      (mid ++ ⟨⟨o₁.sn, s₂.timestamp⟩, .accepted⟩ :: guardLog c) := by
    rw [heq, guardLog_append]
    change guardLog a ++ guardLog (b ++ .dispatch eid g₂ o₂ s₂ q₂ :: c) = _
    rw [guardLog_append]
    change guardLog a ++ (guardLog b ++ guardLog c) = _
    rw [hfirst, hb]
    simp
  obtain ⟨e, he, hlt⟩ := hsep older mid (guardLog c) _ _ _ hlog
  obtain ⟨g, hmem⟩ := mem_guardLog (hb.symm ▸ he)
  exact ⟨g, _, _, _, hmem, hlt⟩

/-- Whatever packets arrive, a reader gets only payloads that an honest writer has sealed, and no
number twice unless a check in between is dated more than the window after the first. -/
theorem replay_protection {p : Participant} {plugin : SecurityPlugin} {w : Int}
    {honest : List Sealed} (hsec : p.security = some plugin)
    (hguard : p.antiReplay = some (newReplayGuard w)) (hplugin : Unforgeable plugin honest)
    (pkts : List Packet) :
    (∀ eid g o s queued, Effect.dispatch eid g o s queued ∈ (p.receive pkts).2 →
      ∃ h ∈ honest, s.payload = h.plaintext) ∧ ∀ a b c eid g₁ o₁ s₁ q₁ g₂ o₂ s₂ q₂,
      (p.receive pkts).2 = a ++ .dispatch eid g₁ o₁ s₁ q₁ :: (b ++ .dispatch eid g₂ o₂ s₂ q₂ :: c) →
      o₁.sn = o₂.sn → ∃ g sn ts v, Effect.replayCheck g sn ts v ∈ b ∧
        s₁.timestamp + (newReplayGuard w).window < ts := by
  rw [receive_eq_run]
  have hrun := guarded_run hguard (pkts.flatMap (inputsOf p.config))
  have hover := handsOver_run hguard (pkts.flatMap (inputsOf p.config))
  constructor
  · intro eid g o s queued he
    obtain ⟨i, hi, hact⟩ := hover.received eid g o s queued he
    obtain ⟨pkt, -, hi⟩ := mem_flatMap.1 hi
    obtain ⟨c, hopen⟩ := opened_of_mem_inputsOf hi hact
    rw [openPayload, hsec] at hopen
    obtain ⟨h, hh, hc⟩ := hplugin.genuine c s.payload hopen
    have hplain := hplugin.inverse h hh c hc
    exact ⟨h, hh, Option.some.inj (hopen.symm.trans hplain)⟩
  · intro a b c eid g₁ o₁ s₁ q₁ g₂ o₂ s₂ q₂ heq hsn
    exact separated_samples hrun.separated hover heq hsn

/-- A plugin that seals with a one-byte tag and opens the one payload that has been sealed. -/
def tagPlugin : SecurityPlugin :=
  ⟨fun _ plaintext => some (plaintext ++ [0xA5]), fun c => if c = [7, 0xA5] then some [7] else none⟩

theorem unforgeable_tagPlugin (g : GUID) : Unforgeable tagPlugin [⟨g, [], [7]⟩] := by
  refine ⟨?_, ?_⟩
  · intro h hh c hc
    obtain rfl := mem_singleton.1 hh
    obtain rfl := Option.some.inj hc
    rfl
  · intro c payload hopen
    refine ⟨_, mem_singleton_self _, ?_⟩
    change (if c = [7, 0xA5] then some [7] else none) = some payload at hopen
    by_cases hc : c = [7, 0xA5]
    · rw [hc]
      rfl
    · rw [if_neg hc] at hopen
      cases hopen

def sealedBy (own : GuidPrefix) (g₁ g₂ : GUID) : Participant :=
  { guardedBy own g₁ g₂ with security := some tagPlugin }

theorem replay_protection_one :
    let g₁ : GUID := ⟨copy 12 [2], entityIdForWriter 1⟩
    let g₂ : GUID := ⟨copy 12 [3], entityIdForWriter 1⟩
    let pkt : Packet := ⟨dataMessage g₁.guidPrefix g₁.entity (u64ToSN 1) 0 [7, 0xA5], none, 0⟩
    let effs := ((sealedBy (copy 12 [1]) g₁ g₂).receive [pkt, pkt]).2
    (effs.filter (isDispatchTo (entityIdForReader 1))).length = 1 ∧
      ∀ eid g o s queued, dispatch eid g o s queued ∈ effs →
        ∃ h ∈ [(⟨g₁, [], [7]⟩ : Sealed)], s.payload = h.plaintext := by
  intro g₁ g₂ pkt effs
  exact ⟨by decide +kernel,
    (replay_protection (w := second) rfl rfl (unforgeable_tagPlugin g₁) [pkt, pkt]).1⟩

/-- **A sealed payload delivered twice**, the second time under a writer that has not sealed it. -/
theorem sealed_payload_twice :
    let g₁ : GUID := ⟨copy 12 [2], entityIdForWriter 1⟩
    let g₂ : GUID := ⟨copy 12 [3], entityIdForWriter 1⟩
    let effs := ((sealedBy (copy 12 [1]) g₁ g₂).receive
      [⟨dataMessage g₁.guidPrefix g₁.entity (u64ToSN 1) 0 [7, 0xA5], none, 0⟩,
        ⟨dataMessage g₂.guidPrefix g₂.entity (u64ToSN 2) 0 [7, 0xA5], none, 0⟩]).2
    Unforgeable tagPlugin [⟨g₁, [], [7]⟩] ∧
      (effs.filterMap fun e =>
        match e with
        | .dispatch _ g _ s _ => some (g, s.payload, s.timestamp)
        | _ => none) = [(g₁, [7], wireTime 0 0), (g₂, [7], wireTime 0 0)] := by
  intro g₁ g₂ effs
  exact ⟨unforgeable_tagPlugin g₁, by decide +kernel⟩

end Participant

end GoDDS
