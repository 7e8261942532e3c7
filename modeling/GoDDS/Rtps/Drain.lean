import GoDDS.Rtps.Write

/-!
# Soundness of draining

The writer keeps one watermark for all readers, so the fastest reader alone moves it, and it closes
its drain channel once and for all, so a `waitDrain` after a later write returns at once.
-/

namespace GoDDS

open ByteCodec Go Security List UInt64 FixedBytes RecvTracker Run

/-! ## The watermark under writer operations -/

namespace Writer

structure SameDrain (w w' : Writer) : Prop where
  cfg : w'.config = w.config
  seq : w'.seq = w.seq
  acked : w'.acked = w.acked
  drainCh : w'.drainCh = w.drainCh

theorem sameDrain_keep (w : Writer) (msgs : List Bytes) : SameDrain w (w.keep msgs) := by
  unfold keep
  split_ifs <;> exact ⟨rfl, rfl, rfl, rfl⟩

theorem sameDrain_announced (w : Writer) : SameDrain w w.announced := by
  unfold announced heartbeat
  split_ifs
  · cases w.history.firstLast <;> exact ⟨rfl, rfl, rfl, rfl⟩
  · exact ⟨rfl, rfl, rfl, rfl⟩

theorem isSome_drainCh {w : Writer} (hrel : w.reliable) : ∃ c, w.drainCh = some c :=
  Option.isSome_iff_exists.1 (w.drainCh_isSome.trans hrel)

theorem advanceAcked_of_closed {w : Writer} (h : w.drainCh = some .closed) (b : UInt64) :
    (w.advanceAcked b).drainCh = some .closed := by
  by_cases hb : b = 0
  · rw [advanceAcked, if_pos hb, h]
  · rw [advanceAcked, if_neg hb]
    simp [h]

theorem advanceAcked_cases {w : Writer} (hrel : w.reliable)
    (hlow : w.acked < w.seq ∨ w.acked = 0 ∧ w.seq = 0) (b : UInt64) :
    ((w.advanceAcked b).drainCh = w.drainCh ∧
        ((w.advanceAcked b).acked < w.seq ∨ (w.advanceAcked b).acked = 0 ∧ w.seq = 0)) ∨
      w.seq < b ∧ (w.advanceAcked b).drainCh = some .closed := by
  by_cases hb : b = 0
  · rw [advanceAcked, if_pos hb]
    exact .inl ⟨rfl, hlow⟩
  have hpos : 0 < b.toNat := Nat.pos_of_ne_zero fun h => hb (UInt64.toNat_inj.1 h)
  have hpred : (b - 1).toNat = b.toNat - 1 :=
    UInt64.toNat_sub_of_le b 1 (le_iff_toNat_le.2 hpos)
  have hacked : (w.advanceAcked b).acked = if b - 1 > w.acked then b - 1 else w.acked := by
    simp only [advanceAcked, if_neg hb]
  have hdrain : (w.advanceAcked b).drainCh =
      w.drainCh.map fun c => if (w.advanceAcked b).acked ≥ w.seq then .closed else c := by
    simp only [advanceAcked, if_neg hb]
  simp only [gt_iff_lt, lt_iff_toNat_lt, hpred] at hacked
  by_cases hlt : w.seq < b
  · refine .inr ⟨hlt, ?_⟩
    have hge : (w.advanceAcked b).acked ≥ w.seq := by
      rw [lt_iff_toNat_lt] at hlt
      rw [ge_iff_le, le_iff_toNat_le, hacked]
      split_ifs <;> omega
    obtain ⟨c, hc⟩ := isSome_drainCh hrel
    rw [hdrain, hc, Option.map_some, if_pos hge]
  · have hlow' : w.acked.toNat < w.seq.toNat := by
      rcases hlow with h | ⟨-, h⟩
      · exact lt_iff_toNat_lt.1 h
      · rw [UInt64.not_lt, le_iff_toNat_le, h] at hlt
        exact absurd hpos (Nat.not_lt.2 hlt)
    have hnew : (w.advanceAcked b).acked < w.seq := by
      rw [UInt64.not_lt, le_iff_toNat_le] at hlt
      rw [lt_iff_toNat_lt, hacked]
      split_ifs <;> omega
    refine .inl ⟨?_, .inl hnew⟩
    have hnge : ¬ (w.advanceAcked b).acked ≥ w.seq := UInt64.not_le.2 hnew
    rw [hdrain]
    simp [hnge]

end Writer

namespace Participant

/-- The operation is an ACKNACK of reader `g` that confirms number `sn` of writer `eid`. -/
def Op.confirms (eid : EntityId) (g : GUID) (sn : UInt64) : Op → Bool
  | .act ⟨.ackNack g' an, _, _⟩ => g' = g && an.writerEntityId = eid && sn < snToU64 an.base
  | _ => false

/-- Reader `g` has acknowledged number `sn` of writer `eid`: one of its ACKNACKs has a base above
it. -/
def Confirmed (eid : EntityId) (g : GUID) (ops : List Op) (sn : UInt64) : Prop :=
  ∃ op ∈ ops, op.confirms eid g sn = true
  deriving Decidable

theorem Confirmed.mono {eid : EntityId} {g : GUID} {ops ops' : List Op} {sn sn' : UInt64}
    (h : Confirmed eid g ops sn) (hops : ops ⊆ ops') (hsn : sn' ≤ sn) :
    Confirmed eid g ops' sn' := by
  obtain ⟨op, hop, hconf⟩ := h
  refine ⟨op, hops hop, ?_⟩
  unfold Op.confirms at hconf ⊢
  split at hconf
  · simp only [Bool.and_eq_true, decide_eq_true_eq] at hconf ⊢
    refine ⟨hconf.1, ?_⟩
    rw [lt_iff_toNat_lt] at hconf ⊢
    rw [le_iff_toNat_le] at hsn
    omega
  · cases hconf

/-- The last number written so far, not counting those above `target`. -/
def lastUpTo (w : Writer) (target : UInt64) : UInt64 := if w.seq ≤ target then w.seq else target

/-- None of the numbers of `w` up to `target` is given out once the channel is closed, and an
ACKNACK that confirms everything comes after the readers `R` have confirmed them. -/
def Op.KeepsSound (R : Finset GUID) (target : UInt64) (past : List Op) (w : Writer) : Op → Prop
  | .write eid _ _ _ => eid = w.eid →
      (w.seq < target → w.drainCh ≠ some .closed) ∧ w.seq ≠ RecvTracker.maxSN
  | .act ⟨.ackNack g an, _, _⟩ => an.writerEntityId = w.eid → w.seq < snToU64 an.base →
      ∀ q ∈ R, q ≠ g → lastUpTo w target ≠ 0 → Confirmed w.eid q past (lastUpTo w target)
  | _ => True

instance (R : Finset GUID) (target : UInt64) (past : List Op) (w : Writer) (op : Op) :
    Decidable (op.KeepsSound R target past w) := by
  unfold Op.KeepsSound
  split <;> infer_instance

def KeepsDrainSound (eid : EntityId) (R : Finset GUID) (target : UInt64) (past : List Op)
    (p : Participant) (op : Op) : Prop :=
  ∀ w ∈ p.writers.get? eid, op.KeepsSound R target past w
  deriving Decidable

/-! ## The invariant -/

/-- What the drain channel of `w` stands for: open, the watermark is below the last number; closed,
every reader has confirmed the numbers up to `target`. -/
structure Drained (eid : EntityId) (R : Finset GUID) (target : UInt64) (past : List Op)
    (w : Writer) : Prop where
  reliable : w.reliable = true
  opened : w.drainCh ≠ some .closed → w.acked < w.seq ∨ w.acked = 0 ∧ w.seq = 0
  closed : w.drainCh = some .closed → ∀ q ∈ R, lastUpTo w target ≠ 0 →
    Confirmed eid q past (lastUpTo w target)

variable {eid : EntityId} {R : Finset GUID} {target : UInt64} {past : List Op} {w w' : Writer}

theorem drained_new {cfg : WriterConfig} (hrel : cfg.reliable) :
    Drained cfg.eid R target [] (Writer.new cfg) := by
  refine ⟨hrel, fun _ => .inr ⟨rfl, rfl⟩, fun h => ?_⟩
  simp [Writer.new, hrel] at h

theorem Drained.congr (h : Drained eid R target past w) (hsame : Writer.SameDrain w w') :
    Drained eid R target past w' := by
  obtain ⟨hrel, hopen, hclosed⟩ := h
  have htop : lastUpTo w' target = lastUpTo w target := by
    unfold lastUpTo
    rw [hsame.seq]
  refine ⟨by rw [hsame.cfg, hrel], ?_, ?_⟩
  · rw [hsame.drainCh, hsame.acked, hsame.seq]
    exact hopen
  · rw [hsame.drainCh, htop]
    exact hclosed

theorem Drained.later (h : Drained eid R target past w) (op : Op) :
    Drained eid R target (past ++ [op]) w := by
  refine ⟨h.reliable, h.opened, ?_⟩
  intro hclosed q hq htop
  exact (h.closed hclosed q hq htop).mono (subset_append_left _ _) (UInt64.le_refl _)

theorem drained_numbered (h : Drained eid R target past w)
    (hopen : w.seq < target → w.drainCh ≠ some .closed) (hmax : w.seq ≠ maxSN) :
    Drained eid R target past { w with seq := w.seq + 1 } := by
  have hsucc : w.seq < w.seq + 1 := lt_succ_of_ne_max hmax
  refine ⟨h.reliable, ?_, ?_⟩
  · intro hch
    refine .inl ?_
    rcases h.opened hch with hlt | ⟨hacked, hseq⟩
    · exact UInt64.lt_of_lt_of_le hlt (UInt64.le_of_lt hsucc)
    · rw [hacked, ← hseq]
      exact hsucc
  · intro hch
    have hge : target ≤ w.seq := UInt64.not_lt.1 fun hlt => hopen hlt hch
    have htop : lastUpTo { w with seq := w.seq + 1 } target = lastUpTo w target := by
      have hnew : ¬ w.seq + 1 ≤ target := fun hle =>
        absurd (UInt64.lt_of_lt_of_le hsucc hle) (UInt64.not_lt.2 hge)
      unfold lastUpTo
      rw [if_neg hnew]
      split_ifs with hle
      · exact UInt64.le_antisymm hge hle
      · rfl
    rw [htop]
    exact h.closed hch

open Writer

theorem drained_acknowledged (h : Drained eid R target past w) {g : GUID} {an : AckNack}
    {src : Option UDPAddr} {now : Int} (hw : an.writerEntityId = eid)
    (hothers : w.seq < snToU64 an.base → ∀ q ∈ R, q ≠ g → lastUpTo w target ≠ 0 →
      Confirmed eid q past (lastUpTo w target)) :
    Drained eid R target (past ++ [.act ⟨.ackNack g an, src, now⟩])
      (w.advanceAcked (snToU64 an.base)) := by
  have hrel : (w.advanceAcked (snToU64 an.base)).reliable := by
    rw [advanceAcked_config, h.reliable]
  have htop : lastUpTo (w.advanceAcked (snToU64 an.base)) target = lastUpTo w target := by
    unfold lastUpTo
    rw [advanceAcked_seq]
  -- an ACKNACK with a base above the last number confirms it for every reader
  have hall : w.seq < snToU64 an.base → ∀ q ∈ R, lastUpTo w target ≠ 0 →
      Confirmed eid q (past ++ [.act ⟨.ackNack g an, src, now⟩]) (lastUpTo w target) := by
    intro hlt q hq hne
    by_cases hqg : q = g
    · have hle : lastUpTo w target ≤ w.seq := by
        unfold lastUpTo
        split_ifs with hseq
        · exact UInt64.le_refl _
        · exact UInt64.le_of_lt (UInt64.not_le.1 hseq)
      have hconf : Confirmed eid q (past ++ [.act ⟨.ackNack g an, src, now⟩]) w.seq := by
        refine ⟨.act ⟨.ackNack g an, src, now⟩, by simp, ?_⟩
        simp [Op.confirms, hqg, hw, hlt]
      exact hconf.mono (List.Subset.refl _) hle
    · exact (hothers hlt q hq hqg hne).mono (subset_append_left _ _) (UInt64.le_refl _)
  refine ⟨hrel, ?_, ?_⟩
  · intro hopen'
    rw [advanceAcked_seq]
    have hopen : w.drainCh ≠ some .closed := fun hc => hopen' (advanceAcked_of_closed hc _)
    rcases advanceAcked_cases h.reliable (h.opened hopen) (snToU64 an.base) with
      ⟨-, hlow⟩ | ⟨-, hc⟩
    · exact hlow
    · exact absurd hc hopen'
  · intro hclosed'
    rw [htop]
    by_cases hclosed : w.drainCh = some .closed
    · exact ((h.later _).closed hclosed)
    · rcases advanceAcked_cases h.reliable (h.opened hclosed) (snToU64 an.base) with
        ⟨hsame, -⟩ | ⟨hlt, -⟩
      · exact absurd (hsame.symm.trans hclosed') hclosed
      · exact hall hlt

theorem drained_move {cfg : ParticipantConfig} {p : Participant} {op : Op}
    (hget : p.writers.get? w.eid = some w) (hC : KeepsDrainSound w.eid R target past p op)
    (h : Drained w.eid R target past w) (hmove : WriterMove cfg w op w') :
    Drained w.eid R target (past ++ [op]) w' ∧ w'.eid = w.eid ∧ w.seq ≤ w'.seq := by
  cases hmove with
  | same hw' =>
    subst hw'
    exact ⟨h.later op, rfl, UInt64.le_refl _⟩
  | announced hw' =>
    subst hw'
    have hsame := w.sameDrain_announced
    refine ⟨(h.later op).congr hsame, congrArg WriterConfig.eid hsame.cfg, ?_⟩
    rw [hsame.seq]
    exact UInt64.le_refl _
  | numbered payload rnd now hop hw' =>
    subst hop hw'
    obtain ⟨hopen, hmax⟩ := hC w hget rfl
    exact ⟨(drained_numbered h hopen hmax).later _, rfl,
      UInt64.le_of_lt (lt_succ_of_ne_max hmax)⟩
  | published payload rnd now wirePayload msgs hop hmsgs hw' =>
    subst hop
    obtain ⟨hopen, hmax⟩ := hC w hget rfl
    have hkeep := sameDrain_keep { w with seq := w.seq + 1 } msgs
    have hann := sameDrain_announced ({ w with seq := w.seq + 1 }.keep msgs)
    rw [← hw'] at hann
    refine ⟨(((drained_numbered h hopen hmax).congr hkeep).congr hann).later _, ?_, ?_⟩
    · rw [hann.cfg, hkeep.cfg]
    · rw [hann.seq, hkeep.seq]
      exact UInt64.le_of_lt (lt_succ_of_ne_max hmax)
  | acknowledged g an src now hop hw _ hw' =>
    subst hop hw'
    refine ⟨drained_acknowledged h hw (hC w hget hw), ?_, ?_⟩
    · rw [advanceAcked_config]
    · rw [Writer.advanceAcked_seq]
      exact UInt64.le_refl _

theorem drained_run {ops : List Op} {p : Participant} (hget : p.writers.get? w.eid = some w)
    (h : Drained w.eid R target past w)
    (hC : Run.Along (KeepsDrainSound w.eid R target) perform past p ops) :
    ∃ w', (run perform p ops).1.writers.get? w.eid = some w' ∧
      Drained w.eid R target (past ++ ops) w' ∧ w.seq ≤ w'.seq := by
  have hrun := run_induction_from
    (J := fun q done _ => ∃ w', q.writers.get? w.eid = some w' ∧ w'.eid = w.eid ∧
      Drained w.eid R target done w' ∧ w.seq ≤ w'.seq)
    (fun (q : Participant) op done _ hCq ⟨v, hv, hveid, hdr, hle⟩ => by
      rw [← hveid] at hv hdr hCq ⊢
      obtain ⟨v', hv', hmove⟩ := perform_writer hv op
      obtain ⟨hdr', hveid', hle'⟩ := drained_move hv hCq hdr hmove
      exact ⟨v', hv', hveid', hdr', UInt64.le_trans hle hle'⟩)
    past [] ⟨w, hget, rfl, h, UInt64.le_refl _⟩ hC
  obtain ⟨w', hw', -, hdr, hle⟩ := hrun
  exact ⟨w', hw', hdr, hle⟩

/-- `waitDrain` returns nil only when every reader has acknowledged every number written before the
call, in every run in which none of these numbers is given out after the channel was closed, and an
ACKNACK that confirms everything written comes when all other readers have acknowledged these
numbers. -/
theorem waitDrain_sound (p : Participant) (cfg : WriterConfig) (before after : List Event)
    {called now : Writer} (hnew : p.writers.get? cfg.eid = some (Writer.new cfg))
    (hrel : cfg.reliable = true)
    (hcalled : (Run.run handle p before).1.writers.get? cfg.eid = some called)
    (hnow : (Run.run handle p (before ++ after)).1.writers.get? cfg.eid = some now)
    (hC : Run.Along (KeepsDrainSound cfg.eid R called.seq) perform [] p
      ((before ++ after).flatMap (opsOf p.config)))
    (hnil : called.waitDrain now = true) (q : GUID) (hq : q ∈ R) (sn : UInt64) (hpos : 1 ≤ sn)
    (hsn : sn ≤ called.seq) :
    Confirmed cfg.eid q ((before ++ after).flatMap (opsOf p.config)) sn := by
  rw [run_handle_eq_run, flatMap_append, run_append] at hnow
  rw [run_handle_eq_run] at hcalled
  rw [flatMap_append] at hC ⊢
  rw [along_append, nil_append] at hC
  obtain ⟨w₁, hw₁, hdr₁, -⟩ := drained_run (w := Writer.new cfg) hnew (drained_new hrel) hC.1
  obtain rfl := Option.some.inj (hcalled.symm.trans hw₁)
  have heid : called.eid = cfg.eid := (Registry.get?_eq_some.1 hcalled).2
  change Drained cfg.eid R called.seq _ called at hdr₁
  rw [nil_append] at hdr₁
  rw [← heid] at hdr₁ hC hcalled hnow ⊢
  obtain ⟨w₂, hw₂, hdr₂, hle⟩ := drained_run hcalled hdr₁ hC.2
  obtain rfl := Option.some.inj (hnow.symm.trans hw₂)
  have hne : called.seq ≠ 0 := by
    intro hzero
    rw [hzero] at hsn
    exact absurd (UInt64.le_trans hpos hsn) (by decide)
  simp only [Writer.waitDrain, Bool.or_eq_true, decide_eq_true_eq] at hnil
  rcases hnil with (hnone | hge) | hclosed
  · obtain ⟨c, hc⟩ := isSome_drainCh hdr₁.reliable
    rw [hc] at hnone
    cases hnone
  · have htop : lastUpTo called called.seq = called.seq := if_pos (UInt64.le_refl _)
    by_cases hclosed : called.drainCh = some .closed
    · have hconf := hdr₁.closed hclosed q hq (by rw [htop]; exact hne)
      rw [htop] at hconf
      exact hconf.mono (subset_append_left _ _) hsn
    · rcases hdr₁.opened hclosed with hlt | ⟨-, hzero⟩
      · exact absurd hge (UInt64.not_le.2 hlt)
      · exact absurd hzero hne
  · have htop : lastUpTo now called.seq = called.seq := by
      unfold lastUpTo
      split_ifs with hle'
      · exact UInt64.le_antisymm hle' hle
      · rfl
    have hconf := hdr₂.closed hclosed q hq (by rw [htop]; exact hne)
    rw [htop] at hconf
    exact hconf.mono (List.Subset.refl _) hsn

def reliableWriter : WriterConfig :=
  ⟨str "t", entityIdForWriter 1, { defaultQoS with reliability := .reliable }, none, false⟩

def publishingTo (own : GuidPrefix) (q₁ q₂ : GUID) : Participant :=
  let info (g : GUID) : EndpointInfo := { guid := g, topicName := str "t" }
  let base := Participant.new (ParticipantConfig.ofDefaults own) none
  { base with
    writers := Registry.empty.insert (Writer.new reliableWriter)
    sedp := { base.sedp with
      remoteReaders := (Registry.empty.insert (info q₁)).insert (info q₂) } }

def ackPacket (q : GUID) (b : UInt64) : Packet :=
  ⟨(Outgoing.ackNack ⟨q.entity, reliableWriter.eid, u64ToSN b, 0, 1⟩).bytes q.guidPrefix, none, 0⟩

theorem waitDrain_sound_two :
    let q₁ : GUID := ⟨copy 12 [2], entityIdForReader 1⟩
    let q₂ : GUID := ⟨copy 12 [3], entityIdForReader 1⟩
    let p := publishingTo (copy 12 [1]) q₁ q₂
    let write : Event := .write reliableWriter.eid [7] [] 0
    let after : List Event := [write, .packet (ackPacket q₁ 2), .packet (ackPacket q₂ 3)]
    Confirmed reliableWriter.eid q₁ (([write] ++ after).flatMap (opsOf p.config)) 1 := by
  intro q₁ q₂ p write after
  have hcalled : ((run handle p [write]).1.writers.get? reliableWriter.eid).isSome = true := by
    decide +kernel
  have hnow : ((run handle p ([write] ++ after)).1.writers.get?
      reliableWriter.eid).isSome = true := by decide +kernel
  refine waitDrain_sound (R := {q₁, q₂}) p reliableWriter [write] after
    (Registry.get?_insert_self _ _) (by decide) (Option.some_get hcalled).symm
    (Option.some_get hnow).symm ?_ ?_ q₁ (by decide) 1 (by decide) ?_
  all_goals decide +kernel +revert

/-- One of two readers acknowledges sample 1, and `waitDrain` returns nil. -/
theorem waitDrain_one_of_two :
    let q₁ : GUID := ⟨copy 12 [2], entityIdForReader 1⟩
    let q₂ : GUID := ⟨copy 12 [3], entityIdForReader 1⟩
    let p := publishingTo (copy 12 [1]) q₁ q₂
    let evs : List Event := [.write reliableWriter.eid [7] [] 0, .packet (ackPacket q₁ 2)]
    (((run handle p evs).1.writers.get? reliableWriter.eid).any
        fun w => w.waitDrain w && w.seq = 1) = true ∧
      ¬ Confirmed reliableWriter.eid q₂ (evs.flatMap (opsOf p.config)) 1 := by decide +kernel

end Participant

end GoDDS
