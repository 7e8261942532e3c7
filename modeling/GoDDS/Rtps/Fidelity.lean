import GoDDS.Rtps.Causes
import GoDDS.Rtps.Link
import GoDDS.Rtps.Numbering

/-!
# The numbers readers see

A sample that comes from the wire carries the low word of its sequence number only.
-/

namespace GoDDS

open ByteCodec Go Security List Option Effect Prod FixedBytes

variable {g : GUID} {p : Participant} {w : Writer}

namespace Participant

/-! ## The sender -/

def sampleMessages (eid : EntityId) (p : Participant) : Turn → List Bytes
  | .call (.write e payload rnd now) =>
    if e = eid then
      ((p.writers.get? e).bind fun w =>
        if Refused w payload then none
        else (sealPayload p.config rnd payload).bind fun wire =>
          w.messages p.guidPrefix (u64ToSN (w.seq + 1)) now wire).getD []
    else []
  | _ => []

def messagesOf (eid : EntityId) : Participant → List Turn → List Bytes
  | _, [] => []
  | p, t :: ts => p.sampleMessages eid t ++ messagesOf eid (p.turn t).1 ts

def Below32 (eid : EntityId) (p : Participant) : Prop :=
  ∀ w ∈ p.writers.get? eid, w.seq.toNat + 1 < 2 ^ 32
  deriving Decidable

theorem toNat_succ_of_below (hget : p.writers.get? w.eid = some w) (h : p.Below32 w.eid) :
    (w.seq + 1).toNat = w.seq.toNat + 1 := by
  have hlt := h w hget
  rw [UInt64.toNat_add]
  exact Nat.mod_eq_of_lt (by
    show w.seq.toNat + 1 < 2 ^ 64
    omega)

theorem numbers_increase (hget : p.writers.get? w.eid = some w) {ts past : List Turn}
    (hid : Run.Along (fun _ q t => ¬ q.ReusesId w.eid t) turn past p ts)
    (hbelow : Run.Along (fun _ q _ => q.Below32 w.eid) turn past p ts) :
    (numbers w.eid p ts).Pairwise (· < ·) ∧
      ∀ n ∈ numbers w.eid p ts, w.seq < n ∧ n.toNat < 2 ^ 32 := by
  induction ts generalizing p w past with
  | nil => exact ⟨.nil, fun n hn => by cases hn⟩
  | cons t ts ih =>
    obtain ⟨w', hw', hmove⟩ := record_turn hget hid.1
    have hweid : w'.eid = w.eid := (Registry.get?_eq_some.1 hw').2
    have hsucc := toNat_succ_of_below hget hbelow.1
    have hlt : w.seq.toNat + 1 < 2 ^ 32 := hbelow.1 w hget
    have hstep : w.seq < w.seq + 1 := by
      rw [UInt64.lt_iff_toNat_lt, hsucc]
      exact Nat.lt_succ_self _
    have hrest : (numbers w.eid (p.turn t).1 ts).Pairwise (· < ·) ∧
        ∀ n ∈ numbers w.eid (p.turn t).1 ts, w'.seq < n ∧ n.toNat < 2 ^ 32 := by
      rw [← hweid] at hw' hid hbelow ⊢
      exact ih hw' hid.2 hbelow.2
    unfold numbers
    cases hmove with
    | same hrec hnone _ =>
      rw [hnone, ← seq_of_record hrec]
      exact hrest
    | published _ _ _ hrec hsome _ =>
      rw [seq_of_record hrec, seq_keep] at hrest
      rw [hsome]
      refine ⟨pairwise_cons.2 ⟨fun n hn => (hrest.2 n hn).1, hrest.1⟩, ?_⟩
      intro n hn
      rcases mem_cons.1 hn with rfl | hn
      · exact ⟨hstep, by rw [hsucc]; exact hlt⟩
      · exact ⟨UInt64.lt_trans hstep (hrest.2 n hn).1, (hrest.2 n hn).2⟩
    | wasted hrec hnone _ =>
      rw [seq_of_record hrec] at hrest
      rw [hnone]
      exact ⟨hrest.1, fun n hn => ⟨UInt64.lt_trans hstep (hrest.2 n hn).1, (hrest.2 n hn).2⟩⟩

def SeenLocally (eid : EntityId) (p : Participant) (t : Turn) : Prop :=
  ∀ c, t = .call c → ∀ reader origin sample queued,
    .dispatch reader ⟨p.guidPrefix, eid⟩ origin sample queued ∈ (p.turn t).2 →
      p.published eid t = some sample.sequenceNumber

theorem number_of_local_dispatch {payload rnd : Bytes} {now : Int} {reader : EntityId}
    {origin : Origin} {sample : Sample} {queued : Bool}
    (h : .dispatch reader g origin sample queued ∈ (p.write w payload rnd now).effects) :
    (p.write w payload rnd now).error = none ∧ g.entity = w.eid ∧
      sample.sequenceNumber = w.seq + 1 := by
  by_cases hrefused : Refused w payload
  · obtain ⟨e, he⟩ := write_of_refused (p := p) hrefused rnd now
    rw [he] at h
    cases h
  by_cases hsend : Sendable p.config w payload rnd
  · refine ⟨error_write_eq_none.2 ⟨hrefused, hsend⟩, ?_⟩
    obtain ⟨wire, msgs, -, -, hwrite⟩ := write_of_sendable hrefused hsend now
    rw [hwrite, publish_effects] at h
    rcases mem_append.1 h with h | h
    · rw [deliverLocally_effects_eq] at h
      obtain ⟨r, hr, hoffer⟩ := mem_flatMap.1 h
      obtain ⟨⟨queued', heq⟩, -⟩ := offer_effects hoffer
      obtain ⟨-, rfl, -, rfl, -⟩ := dispatch.inj heq
      exact ⟨congrArg WriterConfig.eid (Writer.keep_config _ msgs), seq_keep _ msgs⟩
    · rcases mem_append.1 h with h | h
      · exact absurd (sends_sendSample h) (by simp [sends])
      · split_ifs at h
        · exact absurd (sends_sendHeartbeat h) (by simp [sends])
        · cases h
  · obtain ⟨e, he⟩ := write_of_not_sendable hrefused hsend now
    rw [he] at h
    cases h

variable (eid : EntityId)

theorem seenLocally (p : Participant) (t : Turn) : p.SeenLocally eid t := by
  rintro c rfl reader origin sample queued h
  generalize he : dispatch reader ⟨p.guidPrefix, eid⟩ origin sample queued = e at h
  generalize ht : Turn.call c = t at h ⊢
  cases causes_turn h with
  | written hget h =>
    subst he
    obtain ⟨hok, heid, hnumber⟩ := number_of_local_dispatch h
    simp only at heid
    subst heid
    rw [published, if_pos rfl, hget, bind_some, if_pos hok, hnumber]
  | acted h => cases ht
  | sent hsends =>
    subst he
    cases hsends
  | joined => cases he
  | liveliness => cases he
  | polled h =>
    subst he
    exact absurd h not_dispatch_checkLiveliness

/-! ## The receiver -/

def toldOf (g : GUID) : Turn → Option (UInt64 × Bytes × Int)
  | .act ⟨.data g' sn payload ts, _, _⟩ => if g' = g then some (sn, payload, ts) else none
  | _ => none

/-- The messages arrive in the turns `rs` once and in order, as what is decoded from them. -/
structure Lossless (g : GUID) (cfg : ParticipantConfig) (msgs : List Bytes) (rs : List Turn) :
    Prop where
  datagrams : ∀ m ∈ msgs, m.length ≤ maxDatagram
  arrives : ∃ pkts : List Packet, pkts.map Packet.data = msgs ∧
    rs.filterMap (toldOf g) = (pkts.flatMap (inputsOf cfg)).filterMap fun i => toldOf g (.act i)

/-- A sample of `g` that reader `eid` receives: the number it was written under, and the one it
carries. -/
def receivedFrom (eid : EntityId) (g : GUID) : Effect → Option (UInt64 × UInt64)
  | .dispatch reader source origin sample true =>
    if reader = eid ∧ source = g then some (origin.sn, sample.sequenceNumber) else none
  | _ => none

theorem receivedFrom_eq_some {eid : EntityId} {e : Effect} {x : UInt64 × UInt64}
    (h : receivedFrom eid g e = some x) :
    ∃ origin sample, e = .dispatch eid g origin sample true := by
  unfold receivedFrom at h
  split at h
  · next reader source origin sample =>
    split_ifs at h with hsame
    obtain ⟨rfl, rfl⟩ := hsame
    exact ⟨origin, sample, rfl⟩
  · cases h

theorem filterMap_receivedFrom (effs : List Effect) : effs.filterMap (receivedFrom eid g) =
      (effs.filter (isDispatchTo eid)).filterMap (receivedFrom eid g) := by
  rw [filterMap_filter]
  refine congrArg (fun f => effs.filterMap f) (funext fun e => ?_)
  cases hto : isDispatchTo eid e with
  | true => rfl
  | false =>
    refine eq_none_iff_forall_ne_some.2 fun x hx => ?_
    obtain ⟨origin, sample, rfl⟩ := receivedFrom_eq_some hx
    simp [isDispatchTo] at hto

theorem received_turn {q : Participant} (hremote : g.guidPrefix ≠ q.guidPrefix)
    (t : Turn) : (q.turn t).2.filterMap (receivedFrom eid g) = [] ∨
      ∃ d ∈ toldOf g t, (q.turn t).2.filterMap (receivedFrom eid g) =
        [(d.1, (u64ToSN d.1).low.toUInt64)] := by
  by_cases hact : ∃ i, t = .act i
  · obtain ⟨i, rfl⟩ := hact
    change (q.act i).2.filterMap _ = [] ∨ ∃ d ∈ _, (q.act i).2.filterMap _ = _
    rw [filterMap_receivedFrom]
    rcases q.act_dispatches i eid with
      hnone | ⟨r, r', g', sn, payload, ts, queued, hi, -, -, -, -, -, hone⟩
    · rw [hnone]
      exact .inl rfl
    · obtain ⟨a, src, now⟩ := i
      subst hi
      rw [hone]
      cases queued with
      | false => exact .inl rfl
      | true =>
        by_cases hg : g' = g
        · refine .inr ⟨(sn, payload, ts), if_pos hg, ?_⟩
          simp [receivedFrom, hg, remoteDispatch, Dispatch.sample]
        · refine .inl ?_
          simp [receivedFrom, hg]
  · refine .inl (filterMap_eq_nil_iff.2 fun e he => ?_)
    refine eq_none_iff_forall_ne_some.2 fun x hx => hact ?_
    obtain ⟨origin, sample, rfl⟩ := receivedFrom_eq_some hx
    exact act_of_dispatch he hremote

theorem received_run {q : Participant} (hremote : g.guidPrefix ≠ q.guidPrefix)
    (rs : List Turn) : (((Run.run turn q rs).2.filterMap (receivedFrom eid g)).map fst).Sublist
        ((rs.filterMap (toldOf g)).map fst) ∧
      ∀ x ∈ (Run.run turn q rs).2.filterMap (receivedFrom eid g),
        x.2 = (u64ToSN x.1).low.toUInt64 := by
  induction rs generalizing q with
  | nil => exact ⟨.slnil, fun x hx => by cases hx⟩
  | cons t rs ih =>
    have hcfg := congrArg ParticipantConfig.guidPrefix (config_turn q t)
    obtain ⟨hsub, hlow⟩ := ih (q := (q.turn t).1) (by rw [hcfg]; exact hremote)
    rw [Run.run_cons, filterMap_append, map_append]
    rcases received_turn eid hremote t with hnone | ⟨d, hd, hone⟩
    · rw [hnone]
      refine ⟨?_, hlow⟩
      cases htold : toldOf g t with
      | none => rwa [filterMap_cons_none htold]
      | some d =>
        rw [filterMap_cons_some htold]
        exact hsub.cons _
    · rw [hone, filterMap_cons_some hd]
      refine ⟨hsub.cons_cons _, ?_⟩
      intro x hx
      rcases mem_cons.1 hx with rfl | hx
      · rfl
      · exact hlow x hx

/-! ## From the sender to the receiver -/

theorem toldOf_messages {cfg : ParticipantConfig} {n : UInt64} {now : Int} {wire : Bytes}
    {msgs : List Bytes} (hne : p.guidPrefix ≠ cfg.guidPrefix)
    (hmsgs : w.messages p.guidPrefix (u64ToSN n) now wire = some msgs)
    (hlen : ∀ m ∈ msgs, m.length ≤ maxDatagram) {pkts : List Packet}
    (hpkts : pkts.map Packet.data = msgs) (g : GUID) :
    (((pkts.flatMap (inputsOf cfg)).filterMap fun i => toldOf g (.act i)).map fst).Sublist [n] := by
  subst hpkts
  unfold Writer.messages at hmsgs
  dsimp only at hmsgs
  split_ifs at hmsgs with hlong
  · obtain ⟨frags, hfrags, heq⟩ := map_eq_some_iff.1 hmsgs
    have hnone : ∀ pkt ∈ pkts, inputsOf cfg pkt = [] := by
      intro pkt hpkt
      have hmem : pkt.data ∈ pkts.map Packet.data := List.mem_map_of_mem hpkt
      have hshort := hlen _ hmem
      rw [← heq] at hmem
      obtain ⟨f, -, hf⟩ := List.mem_map.1 hmem
      rw [← hf, length_dataFragMessage, maxDatagram] at hshort
      obtain ⟨data, src, at'⟩ := pkt
      subst hf
      exact inputsOf_dataFrag hne _ (by omega) src at'
    rw [flatMap_eq_nil_iff.2 hnone]
    exact nil_sublist _
  · obtain ⟨⟨data, src, at'⟩, hone, hdata⟩ := map_eq_singleton_iff.1 (Option.some.inj hmsgs).symm
    subst hone hdata
    have hshort := hlen _ (mem_singleton_self _)
    rw [length_dataMessage, maxDatagram] at hshort
    rw [flatMap_singleton, inputsOf_data hne _ _ _ (by omega), snToU64_u64ToSN]
    cases hopen : openPayload cfg wire with
    | none => exact nil_sublist _
    | some payload =>
      simp only [map_some, toList_some, filterMap_cons, filterMap_nil, toldOf]
      split_ifs <;> simp

theorem sampleMessages_eq_nil {eid : EntityId} {t : Turn}
    (h : ∀ payload rnd now, t ≠ .call (.write eid payload rnd now)) (p : Participant) :
    p.sampleMessages eid t = [] := by
  unfold sampleMessages
  split
  · next e payload rnd now =>
    refine if_neg fun heid => ?_
    exact h payload rnd now (by rw [heid])
  · rfl

theorem sampleMessages_cases (p : Participant) (t : Turn) :
    (p.published eid t = none ∧ p.sampleMessages eid t = []) ∨
      ∃ (w : Writer) (n : UInt64) (now : Int) (wire : Bytes), p.published eid t = some n ∧
        w.messages p.guidPrefix (u64ToSN n) now wire = some (p.sampleMessages eid t) := by
  by_cases hwrite : ∃ payload rnd now, t = .call (.write eid payload rnd now)
  swap
  · have hother : ∀ payload rnd now, t ≠ .call (.write eid payload rnd now) :=
      fun payload rnd now h => hwrite ⟨payload, rnd, now, h⟩
    exact .inl ⟨published_eq_none hother p, sampleMessages_eq_nil hother p⟩
  obtain ⟨payload, rnd, now, rfl⟩ := hwrite
  simp only [published, sampleMessages, if_true]
  cases hget : p.writers.get? eid with
  | none => exact .inl ⟨rfl, rfl⟩
  | some w =>
    simp only [bind_some, error_write_eq_none]
    by_cases hrefused : Refused w payload
    · simp [hrefused]
    by_cases hsend : Sendable p.config w payload rnd
    · obtain ⟨wire, msgs, hwire, hmsgs, -⟩ := write_of_sendable hrefused hsend now
      refine .inr ⟨w, w.seq + 1, now, wire, if_pos ⟨hrefused, hsend⟩, ?_⟩
      rw [if_neg hrefused, hwire, bind_some, hmsgs]
      rfl
    · refine .inl ⟨if_neg fun h => hsend h.2, ?_⟩
      rw [if_neg hrefused]
      cases hwire : sealPayload p.config rnd payload with
      | none => rfl
      | some wire =>
        rw [bind_some]
        cases hmsgs : w.messages p.guidPrefix (u64ToSN (w.seq + 1)) now wire with
        | none => rfl
        | some msgs =>
          refine absurd ⟨wire, hwire, ?_⟩ hsend
          exact (isSome_messages w p.guidPrefix (u64ToSN (w.seq + 1)) now wire).1
            (by rw [hmsgs]; rfl)

theorem toldOf_run {cfg : ParticipantConfig} (hne : p.guidPrefix ≠ cfg.guidPrefix) (eid : EntityId)
    (g : GUID) {ts : List Turn} {pkts : List Packet}
    (hpkts : pkts.map Packet.data = messagesOf eid p ts)
    (hlen : ∀ m ∈ messagesOf eid p ts, m.length ≤ maxDatagram) :
    (((pkts.flatMap (inputsOf cfg)).filterMap fun i => toldOf g (.act i)).map fst).Sublist
      (numbers eid p ts) := by
  induction ts generalizing p pkts with
  | nil =>
    obtain rfl := map_eq_nil_iff.1 hpkts
    exact .slnil
  | cons t ts ih =>
    have hown := congrArg ParticipantConfig.guidPrefix (config_turn p t)
    rw [messagesOf] at hpkts hlen
    obtain ⟨now, later, rfl, hnow, hlater⟩ := map_eq_append_iff.1 hpkts
    have hrest := ih (p := (p.turn t).1) (by rw [hown]; exact hne) hlater
      fun m hm => hlen m (mem_append_right _ hm)
    rw [flatMap_append, filterMap_append, map_append, numbers]
    refine List.Sublist.append ?_ hrest
    rcases sampleMessages_cases eid p t with ⟨hnone, hnil⟩ | ⟨w, n, time, wire, hsome, hmsgs⟩
    · rw [hnil] at hnow
      obtain rfl := map_eq_nil_iff.1 hnow
      exact nil_sublist _
    · rw [hsome]
      exact toldOf_messages hne hmsgs (fun m hm => hlen m (mem_append_left _ hm)) hnow g

theorem low_eq_iff (n : UInt64) : (u64ToSN n).low.toUInt64 = n ↔ n.toNat < 2 ^ 32 := by
  rw [← UInt64.toNat_inj]
  have hlow : ((u64ToSN n).low.toUInt64).toNat = n.toNat % 2 ^ 32 := by
    simp [u64ToSN]
  rw [hlow]
  constructor
  · intro h
    rw [← h]
    exact Nat.mod_lt _ (by decide)
  · exact Nat.mod_eq_of_lt

/-- Let the messages of a writer's samples arrive at another participant, each once and in order.
What a reader there receives are samples of that writer, in the order in which they were written.
One carries the number it was written under exactly if that number is below `2^32`, and the numbers
received increase as long as the writer stays below it. -/
theorem sequence_number_fidelity (p q : Participant) (w : Writer)
    (hget : p.writers.get? w.eid = some w) (hremote : p.guidPrefix ≠ q.guidPrefix)
    (ts rs : List Turn) (hid : Run.Along (fun _ s t => ¬ s.ReusesId w.eid t) turn [] p ts)
    (hlossless : Lossless ⟨p.guidPrefix, w.eid⟩ q.config (messagesOf w.eid p ts) rs)
    (eid : EntityId) :
    let received := (Run.run turn q rs).2.filterMap (receivedFrom eid ⟨p.guidPrefix, w.eid⟩)
    (received.map fst).Sublist (numbers w.eid p ts) ∧
      (∀ x ∈ received, x.2 = x.1 ↔ x.1.toNat < 2 ^ 32) ∧
      (Run.Along (fun _ s _ => s.Below32 w.eid) turn [] p ts →
        (received.map snd).Pairwise (· < ·)) ∧
      Run.Along (fun _ s t => s.SeenLocally w.eid t) turn [] p ts := by
  intro received
  obtain ⟨pkts, hpkts, htold⟩ := hlossless.arrives
  obtain ⟨hsub, hlow⟩ := received_run eid (g := ⟨p.guidPrefix, w.eid⟩) hremote rs
  have hwritten : (received.map fst).Sublist (numbers w.eid p ts) := by
    refine hsub.trans ?_
    rw [htold]
    exact toldOf_run hremote w.eid _ hpkts hlossless.datagrams
  have hiff : ∀ x ∈ received, x.2 = x.1 ↔ x.1.toNat < 2 ^ 32 := by
    intro x hx
    rw [hlow x hx]
    exact low_eq_iff x.1
  refine ⟨hwritten, hiff, fun hbelow => ?_, ?_⟩
  · obtain ⟨hincrease, hsmall⟩ := numbers_increase hget hid hbelow
    have hsame : received.map snd = received.map fst := by
      refine map_congr_left fun x hx => ?_
      have hmem := hwritten.subset (List.mem_map_of_mem hx)
      exact (hiff x hx).2 (hsmall _ hmem).2
    rw [hsame]
    exact hincrease.sublist hwritten
  · exact Run.along_of_forall (fun _ s t => seenLocally w.eid s t) [] p ts

def withWriter (own : GuidPrefix) (w : Writer) : Participant :=
  { Participant.new (ParticipantConfig.ofDefaults own) none with
    writers := Registry.empty.insert w }

def receiving (cfg : ParticipantConfig) (msgs : List Bytes) : List Turn :=
  ((msgs.map fun m => Packet.mk m none 5).flatMap (inputsOf cfg)).map .act

def twoWrites (eid : EntityId) : List Turn := [.call (.write eid [7] [] 0), .call (.write eid [8] [] 1)]

/-- The samples of the writer that a reader gets from it over a link that loses nothing. -/
def receivedOf (w : Writer) : List (UInt64 × UInt64) :=
  let p := withWriter (copy 12 [1]) w
  let q := subscribedTo (copy 12 [2]) ⟨p.guidPrefix, w.eid⟩
  (Run.run turn q (receiving q.config (messagesOf w.eid p (twoWrites w.eid)))).2.filterMap
    (receivedFrom (entityIdForReader 1) ⟨p.guidPrefix, w.eid⟩)

theorem sequence_number_fidelity_two :
    let received := receivedOf (Writer.new reliableWriter)
    received = [(1, 1), (2, 2)] ∧ (received.map snd).Pairwise (· < ·) := by
  intro received
  let w := Writer.new reliableWriter
  let p := withWriter (copy 12 [1]) w
  let q := subscribedTo (copy 12 [2]) ⟨p.guidPrefix, w.eid⟩
  let msgs := messagesOf w.eid p (twoWrites w.eid)
  have hlossless : Lossless ⟨p.guidPrefix, w.eid⟩ q.config msgs (receiving q.config msgs) :=
    ⟨by decide +kernel, msgs.map fun m => Packet.mk m none 5, by decide +kernel, by decide +kernel⟩
  refine ⟨by decide +kernel, ?_⟩
  exact (sequence_number_fidelity p q w rfl (by decide +kernel) (twoWrites w.eid) _
    (by decide +kernel) hlossless (entityIdForReader 1)).2.2.1 (by decide +kernel)

/-- The samples number `2^32 - 1` and `2^32` of a writer arrive: the second carries the number 0. -/
theorem sequence_number_truncated :
    let w := { Writer.new reliableWriter with seq := 4294967294 }
    numbers w.eid (withWriter (copy 12 [1]) w) (twoWrites w.eid) = [4294967295, 4294967296] ∧
      receivedOf w = [(4294967295, 4294967295), (4294967296, 0)] ∧
      ¬ ((receivedOf w).map snd).Pairwise (· < ·) := by
  decide +kernel

end Participant

end GoDDS
