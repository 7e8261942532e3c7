import GoDDS.Rtps.Tracking

/-!
# First contact with a writer

A reliable reader hears of a writer for the first time by a HEARTBEAT, which anchors its tracker at
the first number it announces, or by a DATA, which anchors it at its own.
-/

namespace GoDDS

open ByteCodec Go Security Watermark RecvTracker FixedBytes

variable {sn : UInt64} {i k : ℕ}

namespace Participant

/-! ## Endless runs of messages -/

/-- The number a tracker is anchored at when the message is the first it hears of. -/
def WriterMessage.anchor : WriterMessage → ℕ
  | .data sn => sn.toNat
  | .heartbeat _ _ => 1

def heard (msgs : ℕ → WriterMessage) : ℕ → Finset ℕ
  | 0 => ∅
  | i + 1 =>
    match msgs i with
    | .data sn => insert sn.toNat (heard msgs i)
    | .heartbeat _ _ => heard msgs i

def arrived (msgs : ℕ → WriterMessage) : Set ℕ := {k | ∃ i sn, msgs i = .data sn ∧ sn.toNat = k}

def requested (g : GUID) (n : ℕ) (src : UDPAddr) (p : Participant) (eid : EntityId)
    (msgs : ℕ → WriterMessage) : Set ℕ :=
  {k | ∃ i sn, sn.toNat = k ∧
    ∃ e ∈ (hear g n src (Run.states (hear g n src) p msgs i) (msgs i)).2, e.Asks eid g sn}

/-- Reader `r` hears of the writer of samples `1..n` for the first time, and HEARTBEATs keep
arriving. -/
structure FirstContact (p : Participant) (g : GUID) (r : Reader) (n : ℕ)
    (msgs : ℕ → WriterMessage) : Prop where
  listens : Listens p g r
  unmet : r.trackers g = none
  small : n ≤ 256
  numbers : ∀ i sn, msgs i = .data sn → 1 ≤ sn.toNat ∧ sn.toNat ≤ n
  heartbeats : ∀ i, ∃ j ≥ i, ∃ count now, msgs j = .heartbeat count now

variable {p : Participant} {g : GUID} {n : ℕ} {src : UDPAddr} {r : Reader}
  {msgs : ℕ → WriterMessage}

theorem heard_mono {j : ℕ} (h : i ≤ j) : heard msgs i ⊆ heard msgs j := by
  induction j, h using Nat.le_induction with
  | base => exact subset_rfl
  | succ j _ ih =>
    refine ih.trans ?_
    rw [heard]
    split
    · exact Finset.subset_insert _ _
    · exact subset_rfl

theorem mem_heard_succ (h : msgs i = .data sn) : sn.toNat ∈ heard msgs (i + 1) := by
  rw [heard, h]
  exact Finset.mem_insert_self _ _

theorem arrived_of_mem_heard (h : k ∈ heard msgs i) : k ∈ arrived msgs := by
  induction i with
  | zero => exact absurd h (Finset.notMem_empty k)
  | succ i ih =>
    rw [heard] at h
    cases hmsg : msgs i with
    | data sn =>
      rw [hmsg] at h
      rcases Finset.mem_insert.1 h with rfl | h
      · exact ⟨i, sn, hmsg, rfl⟩
      · exact ih h
    | heartbeat count now =>
      rw [hmsg] at h
      exact ih h

namespace FirstContact

variable (h : FirstContact p g r n msgs)
include h

theorem anchor_pos : 1 ≤ (msgs 0).anchor := by
  cases hmsg : msgs 0 with
  | data sn => exact (h.numbers 0 sn hmsg).1
  | heartbeat count now => exact le_rfl

theorem anchor_le : (msgs 0).anchor ≤ n + 1 := by
  cases hmsg : msgs 0 with
  | data sn => exact (h.numbers 0 sn hmsg).2.trans (Nat.le_succ n)
  | heartbeat count now => exact Nat.le_add_left 1 n

theorem arrived_mem (hk : k ∈ arrived msgs) : k ∈ Set.Icc 1 n := by
  obtain ⟨i, sn, hmsg, rfl⟩ := hk
  exact h.numbers i sn hmsg

theorem heard_le (hk : k ∈ heard msgs i) : k ≤ n :=
  (h.arrived_mem (arrived_of_mem_heard hk)).2

theorem exists_heard : ∃ t, ∀ k ∈ arrived msgs, k ∈ heard msgs t := by
  have hex : ∀ k : ℕ, ∃ t, k ∈ arrived msgs → k ∈ heard msgs t := by
    intro k
    by_cases hk : k ∈ arrived msgs
    · obtain ⟨i, sn, hmsg, rfl⟩ := hk
      exact ⟨i + 1, fun _ => mem_heard_succ hmsg⟩
    · exact ⟨0, fun hk' => absurd hk' hk⟩
  choose t ht using hex
  refine ⟨(Finset.range (n + 1)).sup t, fun k hk => heard_mono ?_ (ht k hk)⟩
  refine Finset.le_sup (Finset.mem_range.2 ?_)
  have := (h.arrived_mem hk).2
  omega

open WriterMessage

theorem tracks (src : UDPAddr) (i : ℕ) :
    ∃ r', Listens (Run.states (hear g n src) p msgs (i + 1)) g r' ∧ r'.eid = r.eid ∧
      (r'.trackerFor g).Tracks (msgs 0).anchor (heard msgs (i + 1)) ∧
      ∀ sn, (∃ e ∈ (hear g n src (Run.states (hear g n src) p msgs i) (msgs i)).2,
          e.Asks r.eid g sn) ↔
        ∃ m, (r'.trackerFor g).missing ((msgs i).last n) = some m ∧ m.needAck ∧
          RecvTracker.Requests m.base m.bitmap sn := by
  have hn : n ≤ 8192 := h.small.trans (by decide)
  induction i with
  | zero =>
    obtain ⟨r', hl, heid, hwin, hasks⟩ := h.listens.hear n src (msgs 0)
    have hnew : r.trackerFor g = RecvTracker.new := by rw [Reader.trackerFor, h.unmet]; rfl
    refine ⟨r', hl, heid, hwin.tracks ?_, hasks⟩
    rw [hnew, heard]
    cases hmsg : msgs 0 with
    | data sn => exact tracks_record_new ((h.numbers 0 sn hmsg).2.trans hn)
    | heartbeat count now => exact tracks_initExpected_new 1
  | succ i ih =>
    obtain ⟨r₁, hl₁, heid₁, htr, -⟩ := ih
    obtain ⟨r', hl, heid, hwin, hasks⟩ := hl₁.hear n src (msgs (i + 1))
    refine ⟨r', hl, heid.trans heid₁, hwin.tracks ?_, heid₁ ▸ hasks⟩
    rw [heard]
    cases hmsg : msgs (i + 1) with
    | data sn =>
      exact htr.record hn (fun k hk => h.heard_le hk) (h.numbers (i + 1) sn hmsg).2
    | heartbeat count now =>
      rw [WriterMessage.tell, initExpected_of_initDone htr.initDone]
      exact htr

theorem asks_imp (hasks : ∃ e ∈ (hear g n src (Run.states (hear g n src) p msgs i) (msgs i)).2,
      e.Asks r.eid g sn) :
    watermark (msgs 0).anchor (heard msgs (i + 1)) ≤ sn.toNat ∧ sn.toNat ≤ n ∧
      sn.toNat ≤ watermark (msgs 0).anchor (heard msgs (i + 1)) + 31 := by
  have hn : n ≤ 8192 := h.small.trans (by decide)
  obtain ⟨r', -, -, htr, hiff⟩ := h.tracks src i
  obtain ⟨m, hm, -, hreq⟩ := (hiff sn).1 hasks
  obtain ⟨hle, hlast, hwin, -⟩ :=
    (htr.requests_iff hn h.anchor_le (fun k hk => h.heard_le hk) hm sn).1 hreq
  refine ⟨hle, hlast.trans ?_, hwin⟩
  cases hmsg : msgs i with
  | data sn₀ => exact (h.numbers i sn₀ hmsg).2
  | heartbeat count now =>
    rw [last, UInt64.toNat_ofNat']
    exact Nat.mod_le _ _

theorem asks_of_heartbeat {count : Int32} {now : Int} (hmsg : msgs i = .heartbeat count now)
    (hle : watermark (msgs 0).anchor (heard msgs (i + 1)) ≤ sn.toNat) (hlast : sn.toNat ≤ n)
    (hwin : sn.toNat ≤ watermark (msgs 0).anchor (heard msgs (i + 1)) + 31)
    (hnot : sn.toNat ∉ heard msgs (i + 1)) :
    ∃ e ∈ (hear g n src (Run.states (hear g n src) p msgs i) (msgs i)).2, e.Asks r.eid g sn := by
  have hn : n ≤ 8192 := h.small.trans (by decide)
  obtain ⟨r', -, -, htr, hiff⟩ := h.tracks src i
  have hS : ∀ k ∈ heard msgs (i + 1), k ≤ n := fun k hk => h.heard_le hk
  have hto : ((msgs i).last n).toNat = n := by
    rw [hmsg, last, toNat_ofNat_of_le hn]
  have hexp : (r'.trackerFor g).expected ≤ (msgs i).last n := by
    rw [UInt64.le_iff_toNat_le, htr.expected, hto]
    exact hle.trans hlast
  obtain ⟨m, hm, hneed, -⟩ :=
    missing_watermark (htr.counted hn h.anchor_le hS) htr.initDone hexp
  refine (hiff sn).2 ⟨m, hm, hneed, (htr.requests_iff hn h.anchor_le hS hm sn).2 ?_⟩
  exact ⟨hle, hlast.trans hto.ge, hwin, hnot⟩

theorem anchor_le_of_requested (hk : k ∈ requested g n src p r.eid msgs) : (msgs 0).anchor ≤ k := by
  obtain ⟨i, sn, rfl, hasks⟩ := hk
  exact (le_watermark _ _).trans (h.asks_imp hasks).1

end FirstContact

/-- Over an endless run of messages of a writer of the samples `1..n`, the reader receives or asks
for every sample if and only if the samples that never arrive are not below the anchor and lie
within one window. -/
theorem first_contact_iff (h : FirstContact p g r n msgs) :
    requested g n src p r.eid msgs ∪ arrived msgs = Set.Icc 1 n ↔
      ∀ k ∈ Set.Icc 1 n, k ∉ arrived msgs → (msgs 0).anchor ≤ k ∧
        ∀ m ∈ Set.Icc 1 n, m ∉ arrived msgs → k ≤ m + 31 := by
  constructor
  · intro hall k hk hlost
    have hreq : ∀ m ∈ Set.Icc 1 n, m ∉ arrived msgs → m ∈ requested g n src p r.eid msgs := by
      intro m hm hm'
      rw [← hall] at hm
      exact hm.resolve_right hm'
    refine ⟨h.anchor_le_of_requested (hreq k hk hlost), fun m hm hm' => ?_⟩
    -- the window never moves past a number that does not arrive
    have hanchor := h.anchor_le_of_requested (hreq m hm hm')
    obtain ⟨i, sn, rfl, hasks⟩ := hreq k hk hlost
    have hwm : watermark (msgs 0).anchor (heard msgs (i + 1)) ≤ m :=
      watermark_le hanchor fun hin => hm' (arrived_of_mem_heard hin)
    have := (h.asks_imp hasks).2.2
    omega
  · intro hcond
    ext k
    constructor
    · rintro (hk | hk)
      · have hanchor := h.anchor_pos.trans (h.anchor_le_of_requested hk)
        obtain ⟨i, sn, rfl, hasks⟩ := hk
        exact ⟨hanchor, (h.asks_imp hasks).2.1⟩
      · exact h.arrived_mem hk
    · intro hk
      by_cases hlost : k ∈ arrived msgs
      · exact .inr hlost
      refine .inl ?_
      -- the first HEARTBEAT after everything that arrives has arrived
      obtain ⟨t, ht⟩ := h.exists_heard
      obtain ⟨j, hj, count, now, hmsg⟩ := h.heartbeats t
      have hall : ∀ m ∈ arrived msgs, m ∈ heard msgs (j + 1) := fun m hm =>
        heard_mono (by omega) (ht m hm)
      have hnot : k ∉ heard msgs (j + 1) := fun hin => hlost (arrived_of_mem_heard hin)
      have hle := watermark_le (hcond k hk hlost).1 hnot
      have hwm : watermark (msgs 0).anchor (heard msgs (j + 1)) ∈ Set.Icc 1 n :=
        ⟨h.anchor_pos.trans (le_watermark _ _), hle.trans hk.2⟩
      have hwin := (hcond k hk hlost).2 _ hwm fun hin => watermark_notMem _ _ (hall _ hin)
      have hto : (UInt64.ofNat k).toNat = k :=
        toNat_ofNat_of_le (hk.2.trans (h.small.trans (by decide)))
      refine ⟨j, UInt64.ofNat k, hto, h.asks_of_heartbeat hmsg ?_ ?_ ?_ ?_⟩
      · rwa [hto]
      · rw [hto]
        exact hk.2
      all_goals rwa [hto]

def dataFirst (sn : UInt64) : ℕ → WriterMessage
  | 0 => .data sn
  | _ + 1 => .heartbeat 1 0

theorem firstContact_dataFirst (own : GuidPrefix) (g : GUID) (sn : UInt64)
    (h : 1 ≤ sn.toNat ∧ sn.toNat ≤ 3) :
    FirstContact (subscribedTo own g) g (matchedReader g) 3 (dataFirst sn) := by
  refine ⟨⟨rfl, rfl, ?_⟩, rfl, by decide, ?_, fun i => ⟨i + 1, Nat.le_succ i, 1, 0, rfl⟩⟩
  · simp [Reader.acceptsSource_iff, matchedReader]
  · intro i k hk
    cases i with
    | zero =>
      obtain rfl := WriterMessage.data.inj hk
      exact h
    | succ i => cases hk

theorem first_contact_sample_one :
    let g : GUID := ⟨copy 12 [2], entityIdForWriter 1⟩
    requested g 3 ⟨[127, 0, 0, 1], 7411⟩ (subscribedTo (copy 12 [1]) g)
      (entityIdForReader 1) (dataFirst 1) ∪ arrived (dataFirst 1) = Set.Icc 1 3 := by
  intro g
  refine (first_contact_iff (r := matchedReader g)
    (firstContact_dataFirst (copy 12 [1]) g 1 (by decide))).2 ?_
  rintro k ⟨hk₁, hk₃⟩ -
  refine ⟨hk₁, ?_⟩
  rintro m ⟨hm, -⟩ -
  omega

/-- Sample 3 arrives first: samples 1 and 2 are never asked for, however many HEARTBEATs announce
them. -/
theorem first_contact_sample_three :
    let g : GUID := ⟨copy 12 [2], entityIdForWriter 1⟩
    ¬ requested g 3 ⟨[127, 0, 0, 1], 7411⟩ (subscribedTo (copy 12 [1]) g)
      (entityIdForReader 1) (dataFirst 3) ∪ arrived (dataFirst 3) = Set.Icc 1 3 := by
  intro g hall
  have hcontact := firstContact_dataFirst (copy 12 [1]) g 3 (by decide)
  have hone : (1 : ℕ) ∈ Set.Icc 1 3 := ⟨le_rfl, by decide⟩
  rw [← hall] at hone
  rcases hone with hreq | ⟨i, sn, hmsg, hsn⟩
  · exact absurd (hcontact.anchor_le_of_requested hreq) (by decide)
  · cases i with
    | zero =>
      obtain rfl := WriterMessage.data.inj hmsg
      cases hsn
    | succ i => cases hmsg

end Participant

end GoDDS
