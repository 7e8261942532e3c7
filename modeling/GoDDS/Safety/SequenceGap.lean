import GoDDS.Safety.Subscriber

/-!
# Sequence gaps

The counter of the frames has 32 bits and wraps around. A subscriber receives some of the frames, in
order; any may be damaged or too old.
-/

namespace GoDDS.Safety

open ByteCodec Go List UInt32 E2ESubscriber

structure E2EPublisher where
  cfg : E2EConfig
  counter : UInt32

namespace E2EPublisher

def new (cfg : E2EConfig) : E2EPublisher := { cfg, counter := 0 }

def take (p : E2EPublisher) : E2EPublisher × UInt32 :=
  ({ p with counter := p.counter + 1 }, p.counter + 1)

def write (p : E2EPublisher) (payload : Bytes) (now : Int) : E2EPublisher × List Bytes :=
  (p.take.1, [makeFrame p.cfg p.take.2 now payload])

def frames (cfg : E2EConfig) (writes : List (Bytes × Int)) : List Bytes :=
  (Run.run (fun p w => p.write w.1 w.2) (new cfg) writes).2

end E2EPublisher

/-- The frames carry the counters that follow on one another from one. -/
def Numbered (sent : List Bytes) : Prop :=
  ∀ i data, sent[i]? = some data →
    ∃ cfg now payload, data = makeFrame cfg (UInt32.ofNat (i + 1)) now payload

open E2EPublisher

theorem numbered_run (n : Nat) (cfg : E2EConfig) (writes : List (Bytes × Int)) (i : Nat)
    (data : Bytes) (h : (Run.run (fun p w => write p w.1 w.2) ⟨cfg, ofNat n⟩ writes).2[i]? =
      some data) : ∃ now payload, data = makeFrame cfg (ofNat (n + i + 1)) now payload := by
  induction writes generalizing n i with
  | nil => simp at h
  | cons w writes ih =>
    have hnext : (E2EPublisher.mk cfg (UInt32.ofNat n)).take = (⟨cfg, UInt32.ofNat (n + 1)⟩,
        UInt32.ofNat (n + 1)) := by
      simp [E2EPublisher.take, UInt32.ofNat_add]
    rw [Run.run_cons] at h
    simp only [write, hnext, singleton_append] at h
    cases i with
    | zero => exact ⟨w.2, w.1, (Option.some.inj h).symm⟩
    | succ i =>
      obtain ⟨now, payload, hdata⟩ := ih (n + 1) i h
      exact ⟨now, payload, by rw [hdata, show n + 1 + i + 1 = n + (i + 1) + 1 by omega]⟩

theorem numbered_frames (cfg : E2EConfig) (writes : List (Bytes × Int)) :
    Numbered (frames cfg writes) := by
  intro i data h
  obtain ⟨now, payload, hdata⟩ := numbered_run 0 cfg writes i data h
  exact ⟨cfg, now, payload, by rw [hdata, Nat.zero_add]⟩

/-! ## What a subscriber receives -/

/-- `process` refuses the bytes whatever their age. -/
def Damaged (data : Bytes) : Prop := data.length < headerSize ∨ ¬ Accepted data
  deriving Decidable

inductive Event where
  | frame (i : Nat) (raw : Sample) (now : Int) (send : Bool)
  | consume (c : Consume)

namespace Event

def input : Event → Input
  | frame _ raw now send => .process raw now send
  | consume c => .consume c

def index : Event → Option Nat
  | frame i _ _ _ => some i
  | consume _ => none

def accepted (cfg : E2EConfig) : Event → Option Nat
  | frame i raw now _ =>
    match verdict cfg raw.payload now with
    | .accepted _ _ => some i
    | .rejected _ => none
  | consume _ => none

/-- What arrives as frame `i` is that frame, or what damage has made of it. -/
def Genuine (sent : List Bytes) : Event → Prop
  | frame i raw _ _ => sent[i]? = some raw.payload ∨ i < sent.length ∧ Damaged raw.payload
  | consume _ => True

instance (sent : List Bytes) (e : Event) : Decidable (e.Genuine sent) := by
  unfold Genuine
  split <;> infer_instance

theorem accepted_sublist (cfg : E2EConfig) (es : List Event) :
    (es.filterMap (accepted cfg)).Sublist (es.filterMap index) := by
  induction es with
  | nil => exact List.Sublist.slnil
  | cons e es ih =>
    cases e with
    | consume c => exact ih
    | frame i raw now send =>
      have hindex : (frame i raw now send).index = some i := rfl
      rw [filterMap_cons, filterMap_cons_some hindex]
      simp only [accepted]
      cases verdict cfg raw.payload now with
      | rejected kind => exact ih.cons i
      | accepted counter payload => exact ih.cons_cons i

end Event

def acceptedFrames (cfg : E2EConfig) (es : List Event) : List Nat :=
  es.filterMap (Event.accepted cfg)

/-- Some of the frames sent arrive, in order. -/
structure Received (sent : List Bytes) (es : List Event) : Prop where
  inOrder : (es.filterMap Event.index).Pairwise (· < ·)
  genuine : ∀ e ∈ es, e.Genuine sent

/-! ## The counter that is kept -/

variable {payload : Bytes} {cfg : E2EConfig} {s : E2ESubscriber} {now : Int} {sent : List Bytes}
  {i : Nat} {counter : UInt32}

theorem not_damaged_of_accepted {data : Bytes}
    (h : verdict cfg data now = .accepted counter payload) : ¬ Damaged data := by
  unfold verdict at h
  split_ifs at h with hshort hcrc
  rintro (hd | hd)
  · exact hshort hd
  · exact hd hcrc

open Event

theorem counter_of_genuine (hsent : Numbered sent) {raw : Sample} {send : Bool}
    (hgenuine : (Event.frame i raw now send).Genuine sent)
    (h : verdict cfg raw.payload now = .accepted counter payload) : counter = ofNat (i + 1) := by
  rcases hgenuine with hdata | ⟨-, hdamaged⟩
  · obtain ⟨pub, at', body, hframe⟩ := hsent i _ hdata
    rw [hframe, verdict_makeFrame] at h
    split_ifs at h
    exact (Verdict.accepted.inj h).1.symm
  · exact absurd hdamaged (not_damaged_of_accepted h)

/-- What a subscriber remembers, given the frames it has accepted. -/
def Tracks (cfg : E2EConfig) (s : E2ESubscriber) (accepted : List Nat) : Prop :=
  s.cfg = cfg ∧
    match accepted.getLast? with
    | none => s.hasFirst = false
    | some j => s.hasFirst = true ∧ s.lastCounter = UInt32.ofNat (j + 1)

theorem tracks_step (hsent : Numbered sent) {past : List Event} {e : Event}
    (hgenuine : e.Genuine sent) (h : Tracks cfg s (acceptedFrames cfg past)) :
    Tracks cfg (s.step e.input).1 (acceptedFrames cfg (past ++ [e])) := by
  obtain ⟨hcfg, hlast⟩ := h
  unfold acceptedFrames at hlast ⊢
  rw [filterMap_append]
  cases e with
  | consume c =>
    rw [show [consume c].filterMap (accepted cfg) = [] from rfl, append_nil]
    cases c <;> exact ⟨hcfg, hlast⟩
  | frame i raw now send =>
    cases hverdict : verdict cfg raw.payload now with
    | rejected kind =>
      have hnone : (Event.frame i raw now send).accepted cfg = none := by
        simp only [accepted, hverdict]
      rw [filterMap_cons_none hnone, filterMap_nil, append_nil]
      rw [← hcfg] at hverdict
      obtain ⟨counter, message, hprocess⟩ := s.process_rejected hverdict send
      simp only [input, step, hprocess]
      exact ⟨hcfg, hlast⟩
    | accepted counter payload =>
      have hsome : (Event.frame i raw now send).accepted cfg = some i := by
        simp only [accepted, hverdict]
      have hcounter := counter_of_genuine hsent hgenuine hverdict
      rw [filterMap_cons_some hsome, filterMap_nil]
      rw [← hcfg] at hverdict
      obtain ⟨hcfg', hfirst, hkept⟩ := s.accept_remembers raw counter payload send
      simp only [input, step, s.process_accepted hverdict send]
      refine ⟨hcfg'.trans hcfg, ?_⟩
      rw [getLast?_concat]
      exact ⟨hfirst, hkept.trans hcounter⟩

theorem tracks_run (hsent : Numbered sent) (cfg : E2EConfig) {es : List Event}
    (hgenuine : ∀ e ∈ es, e.Genuine sent) :
    Tracks cfg (Run.run (fun s e => step s (input e)) (.new cfg) es).1 (acceptedFrames cfg es) :=
  Run.run_induction (J := fun s past _ => Tracks cfg s (acceptedFrames cfg past))
    (fun _ _ _ _ hg h => tracks_step hsent hg h) ⟨rfl, rfl⟩
    (Run.along_of_mem hgenuine [] _)

theorem Tracks.gap_iff {accepted : List Nat} (h : Tracks cfg s accepted) (i : Nat) :
    s.Gap (ofNat (i + 1)) ↔ ∃ j ∈ accepted.getLast?, ofNat (i + 1) ≠ ofNat (j + 1) + 1 := by
  obtain ⟨-, hlast⟩ := h
  unfold E2ESubscriber.Gap
  cases hl : accepted.getLast? with
  | _ =>
    rw [hl] at hlast
    simp [hlast]

/-! ## Gaps -/

theorem counter_follows_iff {j : Nat} (h : j < i) :
    UInt32.ofNat (i + 1) = UInt32.ofNat (j + 1) + 1 ↔ (i - j - 1) % 2 ^ 32 = 0 := by
  rw [← UInt32.toNat_inj, UInt32.toNat_add, UInt32.toNat_ofNat', UInt32.toNat_ofNat',
    show (1 : UInt32).toNat = 1 from rfl]
  omega

/-- Fewer than `2 ^ 32 - 1` frames are missing between two that are accepted one after the other. -/
def FewMissing (accepted : List Nat) : Prop :=
  accepted.IsChain fun j i => i - j - 1 < 2 ^ 32 - 1

def ReportsGap (os : List Output) : Prop := ∃ e, .error e ∈ os ∧ e.kind = .sequenceGap

theorem reportsGap_iff {raw : Sample}
    (h : verdict s.cfg raw.payload now = .accepted counter payload) (send : Bool) :
    ReportsGap (s.process raw now send).2 ↔ s.Gap counter := by
  rw [s.process_accepted h send]
  simp only [ReportsGap, error_mem_accept]
  exact ⟨fun ⟨_, h, _⟩ => h.1, fun h => ⟨_, ⟨h, rfl⟩, rfl⟩⟩

theorem not_mem_between {xs ys : List Nat} {j k : Nat} (h : (xs ++ i :: ys).Pairwise (· < ·))
    (hlast : xs.getLast? = some j) (hjk : j < k) (hki : k < i) : k ∉ xs ++ i :: ys := by
  obtain ⟨xs, rfl⟩ := getLast?_eq_some_iff.1 hlast
  obtain ⟨hxs, hys, -⟩ := pairwise_append.1 h
  intro hk
  simp only [mem_append, mem_cons, not_mem_nil, or_false] at hk
  rcases hk with (hk | hk) | hk | hk
  · have := (pairwise_append.1 hxs).2.2 k hk j (by simp)
    omega
  · omega
  · omega
  · have := (pairwise_cons.1 hys).1 k hk
    omega

/-- As long as fewer than `2 ^ 32 - 1` frames in a row are missing, a gap is reported with an
accepted frame exactly if another frame was accepted before, and one of the frames sent since that
one was not. -/
theorem sequence_gap_iff (pub cfg : E2EConfig) (writes : List (Bytes × Int)) (past rest : List Event)
    (i : Nat) (raw : Sample) (now : Int) (send : Bool)
    (hreceived : Received (E2EPublisher.frames pub writes) (past ++ .frame i raw now send :: rest))
    (hfew : FewMissing (acceptedFrames cfg (past ++ .frame i raw now send :: rest)))
    (haccepted : (Event.frame i raw now send).accepted cfg = some i) : ReportsGap
      ((Run.run (fun s e => E2ESubscriber.step s (Event.input e)) (.new cfg) past).1.process
        raw now send).2 ↔ ∃ j, (acceptedFrames cfg past).getLast? = some j ∧
      ∃ k, j < k ∧ k < i ∧ k ∉ acceptedFrames cfg (past ++ .frame i raw now send :: rest) := by
  have hsent := numbered_frames pub writes
  have hinOrder : (acceptedFrames cfg _).Pairwise (· < ·) :=
    hreceived.inOrder.sublist (accepted_sublist cfg _)
  have hsplit : acceptedFrames cfg (past ++ .frame i raw now send :: rest) =
      acceptedFrames cfg past ++ i :: acceptedFrames cfg rest := by
    simp only [acceptedFrames, filterMap_append, filterMap_cons_some haccepted]
  rw [hsplit] at hinOrder hfew ⊢
  have htracks := tracks_run hsent cfg fun e (he : e ∈ past) =>
    hreceived.genuine e (mem_append_left _ he)
  have hgenuine := hreceived.genuine (.frame i raw now send) (by simp)
  cases hverdict : verdict cfg raw.payload now with
  | rejected kind => simp [accepted, hverdict] at haccepted
  | accepted counter payload =>
    obtain rfl := counter_of_genuine hsent hgenuine hverdict
    rw [← htracks.1] at hverdict
    rw [reportsGap_iff hverdict send, htracks.gap_iff]
    refine exists_congr fun j => and_congr_right fun hlast => ?_
    have hj : j ∈ acceptedFrames cfg past := mem_of_getLast? hlast
    have hji : j < i := (pairwise_append.1 hinOrder).2.2 j hj i (by simp)
    have hbound : i - j - 1 < 2 ^ 32 - 1 := (isChain_append.1 hfew).2.2 j hlast i (by simp)
    rw [Ne, counter_follows_iff hji, Nat.mod_eq_of_lt (by omega)]
    constructor
    · intro hne
      exact ⟨j + 1, by omega, by omega, not_mem_between hinOrder hlast (by omega) (by omega)⟩
    · rintro ⟨k, hjk, hki, -⟩
      omega

theorem sequence_gap_after_damage :
    let cfg : E2EConfig := { dataID := 1, sourceID := 1 }
    let writes : List (Bytes × Int) := [([0x41], 0), ([0x42], 0), ([0x43], 0)]
    let raw (data : Bytes) : Sample := { topic := [], payload := data, timestamp := 0,
                                         sequenceNumber := 0, writerGUID := zeroGUID }
    let frame (n : Nat) : Bytes := makeFrame cfg (ofNat (n + 1)) 0 [UInt8.ofNat (0x41 + n)]
    let past : List Event := [.frame 0 (raw (frame 0)) 0 true, .consume .read,
      .frame 1 (raw ((frame 1).dropLast ++ [0])) 0 true]
    Received (frames cfg writes) (past ++ [.frame 2 (raw (frame 2)) 0 true]) ∧
      ReportsGap ((Run.run (fun s e => step s (input e)) (.new cfg)
        past).1.process (raw (frame 2)) 0 true).2 := by
  intro cfg writes raw frame past
  have hreceived : Received (frames cfg writes)
      (past ++ [.frame 2 (raw (frame 2)) 0 true]) := ⟨by decide +kernel, by decide +kernel⟩
  refine ⟨hreceived, (sequence_gap_iff cfg cfg writes past [] 2 (raw (frame 2)) 0 true hreceived
    (by unfold FewMissing; decide +kernel) (by decide +kernel)).2 ?_⟩
  exact ⟨0, by decide +kernel, 1, by decide, by decide, by decide +kernel⟩

end GoDDS.Safety
