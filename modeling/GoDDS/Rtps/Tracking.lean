import GoDDS.Lib.Watermark
import GoDDS.Rtps.Gap
import GoDDS.Rtps.Window

/-!
# What a tracker has been told of

`Tracks` ties a tracker to the set of numbers it has been told of. An acknowledgement asks for the
numbers of one window that are not in it (`Tracks.requests_iff`).
-/

namespace GoDDS

open ByteCodec Go Security Watermark UInt64 Reader
open List hiding lt_of_le_of_lt

/-! ## The numbers a tracker has been told of -/

namespace RecvTracker

/-- The tracker is anchored at `a` and has been told of the numbers in `S`. -/
structure Tracks (rt : RecvTracker) (a : ℕ) (S : Finset ℕ) : Prop where
  initDone : rt.initDone = true
  expected : rt.expected.toNat = watermark a S
  ahead : ∀ s, s ∈ rt.ahead ↔ s.toNat ∈ S ∧ rt.expected < s

theorem SameWindow.tracks {rt rt' : RecvTracker} (h : SameWindow rt rt') {a : ℕ} {S : Finset ℕ}
    (ht : rt.Tracks a S) : rt'.Tracks a S := by
  refine ⟨h.initDone.trans ht.initDone, ?_, fun s => ?_⟩
  · rw [h.expected]
    exact ht.expected
  · rw [h.ahead, h.expected]
    exact ht.ahead s

theorem tracks_initExpected_new (first : UInt64) :
    (new.initExpected first).Tracks first.toNat ∅ := by
  refine ⟨rfl, (watermark_empty _).symm, fun s => ?_⟩
  simp [new, initExpected]

theorem mem_of_lt_advance {fuel : Nat} {e k : UInt64} {A : Finset UInt64} (hmax : maxSN ∉ A)
    (hk : e ≤ k) (hlt : k < (advance fuel e A).1) : k ∈ A := by
  induction fuel generalizing e A with
  | zero => exact absurd hk (UInt64.not_le.2 hlt)
  | succ fuel ih =>
    by_cases he : e ∈ A
    · rw [advance, if_pos he] at hlt
      by_cases hke : e = k
      · exact hke ▸ he
      · refine Finset.mem_of_mem_erase (ih (fun h => hmax (Finset.mem_of_mem_erase h)) ?_ hlt)
        exact lt_succ_of_ne hk hke
    · rw [advance, if_neg he] at hlt
      exact absurd hk (UInt64.not_le.2 hlt)

theorem toNat_ofNat_of_le {k : ℕ} (h : k ≤ 8192) : (UInt64.ofNat k).toNat = k :=
  toNat_ofNat_of_lt' (lt_of_le_of_lt h (by decide))

variable {sn : UInt64}

theorem ne_maxSN_of_le {n : ℕ} (hn : n ≤ 8192) (h : sn.toNat ≤ n) : sn ≠ maxSN := by
  rintro rfl
  exact absurd (h.trans hn) (by decide)

variable {rt : RecvTracker} {a n : ℕ} {S : Finset ℕ}

theorem Tracks.maxSN_notMem (h : rt.Tracks a S) (hn : n ≤ 8192) (hS : ∀ k ∈ S, k ≤ n) :
    maxSN ∉ rt.ahead := fun hmem =>
  ne_maxSN_of_le hn (hS _ ((h.ahead _).1 hmem).1) rfl

theorem Tracks.advance (h : rt.Tracks a S) (hmax : maxSN ∉ rt.ahead)
    (hsn : sn = rt.expected) (hne : sn ≠ maxSN) :
    let adv := advance rt.ahead.card (rt.expected + 1) rt.ahead
    adv.1.toNat = watermark a (insert sn.toNat S) ∧
      ∀ s, s ∈ adv.2 ↔ s.toNat ∈ insert sn.toNat S ∧ adv.1 < s := by
  intro adv
  subst hsn
  have hsucc := lt_succ_of_ne_max hne
  obtain ⟨hge, hsub, hkeep⟩ : rt.expected + 1 ≤ adv.1 ∧ adv.2 ⊆ rt.ahead ∧
      ∀ s ∈ rt.ahead, s ∈ adv.2 ∨ s < adv.1 := advance_keeps hmax
  have hstep : ∀ k, rt.expected + 1 ≤ k → k < adv.1 → k ∈ rt.ahead := fun k =>
    mem_of_lt_advance hmax
  have hgt : ∀ s ∈ adv.2, adv.1 < s := advance_gt le_rfl fun s hs =>
    lt_succ_of_ne (UInt64.le_of_lt (rt.ahead_gt s hs)) (UInt64.ne_of_lt (rt.ahead_gt s hs))
  have hmem : ∀ s, s ∈ adv.2 ↔ s.toNat ∈ insert rt.expected.toNat S ∧ adv.1 < s := by
    intro s
    rw [Finset.mem_insert]
    constructor
    · intro hs
      exact ⟨.inr ((h.ahead s).1 (hsub hs)).1, hgt s hs⟩
    · rintro ⟨hs, hlt⟩
      have hlt' : rt.expected < s :=
        UInt64.lt_of_lt_of_le hsucc (UInt64.le_trans hge (UInt64.le_of_lt hlt))
      have hs' : s.toNat ∈ S := hs.resolve_left fun heq =>
        UInt64.ne_of_lt hlt' (UInt64.toNat_inj.1 heq.symm)
      refine (hkeep s ((h.ahead s).2 ⟨hs', hlt'⟩)).resolve_right fun hback => ?_
      exact UInt64.lt_irrefl _ (UInt64.lt_trans hlt hback)
  refine ⟨(watermark_eq ?_ ?_ ?_).symm, hmem⟩
  · have hwm := le_watermark a S
    rw [← h.expected] at hwm
    rw [lt_iff_toNat_lt] at hsucc
    rw [le_iff_toNat_le] at hge
    exact hwm.trans (hsucc.le.trans hge)
  · rw [Finset.mem_insert, not_or]
    refine ⟨fun heq => ?_, fun hin => ?_⟩
    · exact UInt64.ne_of_lt (UInt64.lt_of_lt_of_le hsucc hge) (UInt64.toNat_inj.1 heq).symm
    · have hahead := (h.ahead adv.1).2 ⟨hin, UInt64.lt_of_lt_of_le hsucc hge⟩
      rcases hkeep _ hahead with hin' | hlt
      · exact UInt64.lt_irrefl _ (hgt _ hin')
      · exact UInt64.lt_irrefl _ hlt
  · intro i hi hlt
    rw [Finset.mem_insert]
    have hbig : i < 2 ^ 64 := hlt.trans adv.1.toNat_lt
    have hto : (UInt64.ofNat i).toNat = i := UInt64.toNat_ofNat_of_lt' hbig
    rcases Nat.lt_trichotomy i rt.expected.toNat with hbelow | heq | habove
    · exact .inr (mem_of_lt_watermark hi (h.expected ▸ hbelow))
    · exact .inl heq
    · refine .inr ?_
      rw [← hto]
      rw [← hto] at habove hlt
      have hbelow := lt_iff_toNat_lt.2 habove
      refine ((h.ahead _).1 (hstep _ ?_ (lt_iff_toNat_lt.2 hlt))).1
      exact lt_succ_of_ne (UInt64.le_of_lt hbelow) (UInt64.ne_of_lt hbelow)

theorem lt_sub_iff {e s : UInt64} (h : e < s) :
    maxReorderAhead < s - e ↔ e.toNat + maxReorderAhead.toNat < s.toNat := by
  rw [lt_iff_toNat_lt, UInt64.toNat_sub_of_le _ _ (UInt64.le_of_lt h)]
  exact Nat.lt_sub_iff_add_lt'

theorem Tracks.record_near (h : rt.Tracks a S) (hmax : maxSN ∉ rt.ahead)
    (hne : sn ≠ maxSN) (hnear : sn.toNat ≤ rt.expected.toNat + maxReorderAhead.toNat) :
    (rt.record sn).1.Tracks a (insert sn.toNat S) := by
  have hcases := record_cases rt sn
  simp only [initExpected_of_initDone h.initDone] at hcases
  rcases hcases with ⟨hr, hwhy⟩ | ⟨heq, hinit, he, ha⟩ | ⟨hgt, hinit, he, ha⟩
  · rw [hr]
    have hcase : sn < rt.expected ∨ sn ∈ rt.ahead := by
      rcases hwhy with hlt | hmem | ⟨hlt, hfar⟩
      · exact .inl hlt
      · exact .inr hmem
      · exact absurd hnear (not_le.2 ((lt_sub_iff hlt).1 hfar))
    have hexp : sn ≠ rt.expected := by
      rcases hcase with hlt | hmem
      · exact UInt64.ne_of_lt hlt
      · exact (UInt64.ne_of_lt (rt.ahead_gt sn hmem)).symm
    refine ⟨h.initDone, ?_, fun s => ?_⟩
    · rw [watermark_insert_of_ne fun heq => hexp (UInt64.toNat_inj.1 (heq.trans h.expected.symm))]
      exact h.expected
    · rw [h.ahead, Finset.mem_insert]
      refine and_congr_left fun hlt => ⟨.inr, fun hs => hs.elim (fun heq => ?_) id⟩
      obtain rfl := UInt64.toNat_inj.1 heq
      rcases hcase with hback | hmem
      · exact absurd hback (UInt64.not_lt.2 (UInt64.le_of_lt hlt))
      · exact ((h.ahead s).1 hmem).1
  · obtain ⟨hexp, hahead⟩ := h.advance hmax heq hne
    refine ⟨hinit, by rw [he]; exact hexp, fun s => ?_⟩
    rw [ha, he]
    exact hahead s
  · refine ⟨hinit, ?_, fun s => ?_⟩
    · rw [he, watermark_insert_of_ne fun heq =>
        (UInt64.ne_of_lt hgt).symm (UInt64.toNat_inj.1 (heq.trans h.expected.symm))]
      exact h.expected
    · rw [ha, he, Finset.mem_insert, Finset.mem_insert, h.ahead]
      constructor
      · rintro (rfl | ⟨hs, hlt⟩)
        · exact ⟨.inl rfl, hgt⟩
        · exact ⟨.inr hs, hlt⟩
      · rintro ⟨heq | hs, hlt⟩
        · exact .inl (UInt64.toNat_inj.1 heq)
        · exact .inr ⟨hs, hlt⟩

theorem Tracks.record (h : rt.Tracks a S) (hn : n ≤ 8192) (hS : ∀ k ∈ S, k ≤ n)
    (hsn : sn.toNat ≤ n) : (rt.record sn).1.Tracks a (insert sn.toNat S) :=
  h.record_near (h.maxSN_notMem hn hS) (ne_maxSN_of_le hn hsn)
    ((hsn.trans hn).trans (Nat.le_add_left _ _))

theorem tracks_record_new (hsn : sn.toNat ≤ 8192) :
    (new.record sn).1.Tracks sn.toNat {sn.toNat} := by
  have heq : new.record sn = (new.initExpected sn).record sn := rfl
  rw [heq]
  exact (tracks_initExpected_new sn).record le_rfl (by simp) hsn

theorem Tracks.foldl_record (h : rt.Tracks a S) (hn : n ≤ 8192) (hS : ∀ k ∈ S, k ≤ n)
    {got : List UInt64} (hgot : ∀ k ∈ got, k.toNat ≤ n) :
    ∃ S', ((got.map .record).foldl call rt).Tracks a S' ∧ ∀ k ∈ S', k ≤ n := by
  induction got generalizing rt S with
  | nil => exact ⟨S, h, hS⟩
  | cons sn got ih =>
    have hsn := hgot sn mem_cons_self
    refine ih (h.record hn hS hsn) ?_ fun k hk => hgot k (mem_cons_of_mem _ hk)
    exact fun k hk => (Finset.mem_insert.1 hk).elim (fun heq => heq ▸ hsn) (hS k)

theorem Tracks.counted (h : rt.Tracks a S) (hn : n ≤ 8192) (ha : a ≤ n + 1)
    (hS : ∀ k ∈ S, k ≤ n) : rt.Counted := by
  have hwm := watermark_le_succ ha hS
  refine ⟨?_, fun s hs => ?_⟩
  · rw [h.expected]
    omega
  · have := hS _ ((h.ahead s).1 hs).1
    omega

theorem Tracks.requests_iff (h : rt.Tracks a S) (hn : n ≤ 8192) (ha : a ≤ n + 1)
    (hS : ∀ k ∈ S, k ≤ n) {lastSN : UInt64} {m : Missing} (hm : rt.missing lastSN = some m)
    (sn : UInt64) :
    Requests m.base m.bitmap sn ↔ watermark a S ≤ sn.toNat ∧ sn.toNat ≤ lastSN.toNat ∧
      sn.toNat ≤ watermark a S + 31 ∧ sn.toNat ∉ S := by
  have hexp := h.expected
  have hwm := watermark_le_succ ha hS
  rw [requests_missing_iff hm h.initDone (by omega), h.ahead, le_iff_toNat_le,
    le_iff_toNat_le, hexp]
  refine and_congr_right fun hle => and_congr_right fun _ => and_congr_right fun _ => not_congr ?_
  refine and_iff_left_of_imp fun hs => lt_iff_toNat_lt.2 ?_
  rw [hexp]
  exact lt_of_le_of_ne hle fun heq => watermark_notMem a S (heq ▸ hs)

/-! ## The numbers kept -/

theorem record_same {s : UInt64} (hinit : rt.initDone)
    (h : s < rt.expected ∨ rt.expected.toNat + maxReorderAhead.toNat < s.toNat) :
    (rt.record s).1 = rt := by
  simp only [record, initExpected_of_initDone hinit]
  rcases h with hlt | hfar
  · rw [dif_pos hlt]
  · have hlt : rt.expected < s := lt_iff_toNat_lt.2 (by omega)
    rw [dif_neg (UInt64.not_lt.2 (UInt64.le_of_lt hlt)), dif_neg (UInt64.ne_of_lt hlt).symm,
      if_neg (UInt64.not_le.2 ((lt_sub_iff hlt).2 hfar))]
    split_ifs <;> rfl

theorem record_eq_false_iff (hinit : rt.initDone) (s : UInt64) :
    (rt.record s).2 = false ↔ s < rt.expected ∨ s ∈ rt.ahead := by
  have hahead := rt.ahead_gt s
  simp only [record, initExpected_of_initDone hinit]
  split_ifs with hlt heq hmem hnear
  · simp [hlt]
  · subst heq
    simpa using fun h => UInt64.lt_irrefl _ (hahead h)
  · simp [hmem]
  all_goals simp [hlt, hmem]

def Call.seq : Call → UInt64
  | .record s | .initExpected s => s

/-- The first value the watermark is set to. -/
def anchor : List Call → ℕ
  | [] => 0
  | c :: _ => c.seq.toNat

/-- The numbers kept after one more call. -/
def keep (a : ℕ) (rt : RecvTracker) (S : Finset ℕ) : Call → Finset ℕ
  | .record s =>
    if a ≤ s.toNat ∧ s.toNat ≤ (rt.initExpected s).expected.toNat + maxReorderAhead.toNat then
      insert s.toNat S
    else S
  | .initExpected _ => S

/-- The numbers from `a` on that were within the reorder bound when they were recorded. -/
def kept (a : ℕ) : RecvTracker → Finset ℕ → List Call → Finset ℕ
  | _, S, [] => S
  | rt, S, c :: calls => kept a (rt.call c) (keep a rt S c) calls

/-- The tracker keeps the numbers in `S`, and those ahead are within the reorder bound. -/
structure Keeps (rt : RecvTracker) (a : ℕ) (S : Finset ℕ) : Prop where
  tracks : rt.Tracks a S
  maxSN_notMem : maxSN ∉ rt.ahead
  near : ∀ s ∈ rt.ahead, s.toNat ≤ rt.expected.toNat + maxReorderAhead.toNat

theorem Keeps.call (h : rt.Keeps a S) {c : Call} (hc : c.seq ≠ maxSN) :
    (rt.call c).Keeps a (keep a rt S c) := by
  have hinit := h.tracks.initDone
  cases c with
  | initExpected s =>
    rw [RecvTracker.call, initExpected_of_initDone hinit]
    exact h
  | record s =>
    rw [keep, initExpected_of_initDone hinit]
    change (rt.record s).1.Keeps a _
    split_ifs with hkeep
    · have htracks := h.tracks.record_near h.maxSN_notMem hc hkeep.2
      refine ⟨htracks, maxSN_notMem_record h.maxSN_notMem hc, fun k hk => ?_⟩
      have hle := expected_le_record hinit h.maxSN_notMem hc
      obtain ⟨hmem, hlt⟩ := (htracks.ahead k).1 hk
      have hkle : k.toNat ≤ rt.expected.toNat + maxReorderAhead.toNat := by
        rcases Finset.mem_insert.1 hmem with heq | hS
        · rw [heq]
          exact hkeep.2
        · exact h.near k ((h.tracks.ahead k).2 ⟨hS, UInt64.lt_of_le_of_lt hle hlt⟩)
      exact hkle.trans (Nat.add_le_add_right (le_iff_toNat_le.1 hle) _)
    · rw [record_same hinit]
      · exact h
      refine (not_and_or.1 hkeep).imp (fun hlow => lt_iff_toNat_lt.2 ?_) not_le.1
      rw [h.tracks.expected]
      exact (not_le.1 hlow).trans_le (le_watermark a S)

theorem Keeps.foldl_call (h : rt.Keeps a S) {calls : List Call}
    (hmax : ∀ c ∈ calls, c.seq ≠ maxSN) :
    (calls.foldl RecvTracker.call rt).Keeps a (kept a rt S calls) := by
  induction calls generalizing rt S with
  | nil => exact h
  | cons c calls ih =>
    exact ih (h.call (hmax c mem_cons_self)) fun c' hc' => hmax c' (mem_cons_of_mem c hc')

theorem keeps_after (c : Call) {calls : List Call} (hmax : ∀ c' ∈ c :: calls, c'.seq ≠ maxSN) :
    (after (c :: calls)).Keeps c.seq.toNat (kept c.seq.toNat new ∅ (c :: calls)) := by
  have hnew : (new.initExpected c.seq).Keeps c.seq.toNat ∅ := by
    refine ⟨tracks_initExpected_new c.seq, ?_, ?_⟩ <;> simp [new, initExpected]
  have hcall : new.call c = (new.initExpected c.seq).call c := by cases c <;> rfl
  have hkeep : keep c.seq.toNat new ∅ c = keep c.seq.toNat (new.initExpected c.seq) ∅ c := by
    cases c <;> rfl
  rw [after, kept, foldl_cons, hcall, hkeep]
  exact hnew.foldl_call hmax

theorem Keeps.card_ahead_le (h : rt.Keeps a S) : rt.ahead.card ≤ 8192 := by
  have hsub : ∀ s ∈ rt.ahead, s.toNat ∈
      Finset.Ioc rt.expected.toNat (rt.expected.toNat + maxReorderAhead.toNat) := fun s hs =>
    Finset.mem_Ioc.2 ⟨lt_iff_toNat_lt.1 (rt.ahead_gt s hs), h.near s hs⟩
  have hcard := Finset.card_le_card_of_injOn UInt64.toNat hsub fun s _ s' _ => UInt64.toNat_inj.1
  rw [Nat.card_Ioc, Nat.add_sub_cancel_left] at hcard
  exact hcard

/-- After any calls, the watermark is the least number from the anchor on that was not kept, the
numbers ahead are those kept above it, and `record` reports as a duplicate what lies below the
anchor or was kept. -/
theorem tracker_invariant {calls : List Call} (hlt : ∀ c ∈ calls, c.seq.toNat < 2 ^ 63) :
    let rt := after calls
    let a := anchor calls
    let S := kept a new ∅ calls
    IsLeast {n | a ≤ n ∧ n ∉ S} rt.expected.toNat ∧
      (∀ s, s ∈ rt.ahead ↔ s.toNat ∈ S ∧ rt.expected < s) ∧
      (∀ s, (rt.record s).2 = false ↔ s.toNat < anchor (calls ++ [.record s]) ∨ s.toNat ∈ S) ∧
      rt.ahead.card ≤ 8192 := by
  cases calls with
  | nil =>
    refine ⟨⟨⟨zero_le, by simp [kept]⟩, fun _ _ => zero_le⟩, ?_, ?_, by decide⟩
    · simp [kept, after, new]
    · simp [kept, after, new, record, initExpected, anchor, Call.seq]
  | cons c calls =>
    have h := keeps_after c fun c' hc' heq => absurd (hlt c' hc') (heq ▸ by decide)
    have hexp := h.tracks.expected
    intro rt a S
    rw [hexp]
    refine ⟨⟨⟨le_watermark a S, watermark_notMem a S⟩, fun n hn => watermark_le hn.1 hn.2⟩,
      h.tracks.ahead, fun s => ?_, h.card_ahead_le⟩
    rw [record_eq_false_iff h.tracks.initDone, h.tracks.ahead, lt_iff_toNat_lt, lt_iff_toNat_lt]
    rw [hexp]
    constructor
    · rintro (hbelow | ⟨hs, -⟩)
      · exact (lt_or_ge _ a).imp_right fun hge => mem_of_lt_watermark hge hbelow
      · exact .inr hs
    · rintro (hlow | hs)
      · exact .inl (hlow.trans_le (le_watermark a S))
      · refine (lt_or_ge _ _).imp_right fun hge => ⟨hs, hge.lt_of_ne fun heq => ?_⟩
        exact watermark_notMem a S (heq ▸ hs)

theorem tracker_invariant_gap :
    let calls : List Call := [.initExpected 1, .record 1, .record 3]
    IsLeast {n | 1 ≤ n ∧ n ∉ kept 1 new ∅ calls} 2 := by
  intro calls
  have hcalls : ∀ c ∈ calls, c.seq.toNat < 2 ^ 63 := by decide
  exact (tracker_invariant hcalls).1

end RecvTracker

/-! ## Hearing a writer -/

namespace Participant

inductive WriterMessage where
  | data (sn : UInt64)
  | heartbeat (count : Int32) (now : Int)

def announcement (writer : EntityId) (n : ℕ) (count : Int32) : Heartbeat :=
  { readerEntityId := entityIdUnknown, writerEntityId := writer, firstSN := u64ToSN 1,
    lastSN := u64ToSN (UInt64.ofNat n), count := count, liveliness := false }

def hear (g : GUID) (n : ℕ) (src : UDPAddr) (p : Participant) :
    WriterMessage → Participant × List Effect
  | .data sn => p.notifyReliableReaders g sn (some src)
  | .heartbeat count now => p.handleHeartbeat g (announcement g.entity n count) (some src) now

def WriterMessage.tell (rt : RecvTracker) : WriterMessage → RecvTracker
  | .data sn => (rt.record sn).1
  | .heartbeat _ _ => rt.initExpected 1

def WriterMessage.last (n : ℕ) : WriterMessage → UInt64
  | .data sn => sn
  | .heartbeat _ _ => UInt64.ofNat n

structure Listens (p : Participant) (g : GUID) (r : Reader) : Prop where
  mem : p.readers.get? r.eid = some r
  reliable : r.reliable = true
  accepts : r.acceptsSource p.guidPrefix g = true

variable {p : Participant} {g : GUID} {n : ℕ} {src : UDPAddr} {r : Reader}

theorem hear_effects {msg : WriterMessage} {e : Effect} (h : e ∈ (hear g n src p msg).2) :
    ∃ an, e = .unicast src g.guidPrefix (.ackNack an) ∧ an.writerEntityId = g.entity := by
  have hack : ∀ {r' : Reader} {rt : RecvTracker} {lastSN : UInt64},
      e ∈ (r'.acknowledge g rt lastSN (some src)).effects →
      ∃ an, e = .unicast src g.guidPrefix (.ackNack an) ∧ an.writerEntityId = g.entity := by
    intro r' rt lastSN he
    unfold acknowledge at he
    split at he
    · cases he
    · split_ifs at he
      · cases he
      · rw [mem_singleton.1 he]
        exact ⟨_, rfl, rfl⟩
  cases msg with
  | data sn =>
    obtain ⟨r', -, he⟩ := mem_flatMap.1 h
    unfold notify at he
    dsimp only at he
    split_ifs at he
    · cases he
    · exact hack he
  | heartbeat count now =>
    obtain ⟨r', -, he⟩ := mem_flatMap.1 h
    unfold onHeartbeat at he
    dsimp only at he
    split_ifs at he
    · cases he
    · cases he
    · exact hack he

theorem Listens.acknowledges (h : Listens p g r) (n : ℕ) (src : UDPAddr) (msg : WriterMessage) :
    ∃ r₀, r.SameMatch r₀ ∧ (hear g n src p msg).1.readers.get? r.eid =
        some (r₀.acknowledge g (msg.tell (r.trackerFor g)) (msg.last n) (some src)).reader ∧
      ∀ sn, (∃ e ∈ (hear g n src p msg).2, e.Asks r.eid g sn) ↔
        ∃ e ∈ (r₀.acknowledge g (msg.tell (r.trackerFor g)) (msg.last n) (some src)).effects,
          e.Asks r₀.eid g sn := by
  -- only the reader itself sends acknowledgements in its name
  have hown : ∀ {f : Reader → Reaction} {rt : Reader → RecvTracker} {lastSN : UInt64} {e : Effect}
      {r' : Reader} {sn : UInt64}, (∀ r' e, e ∈ (f r').effects → r'.IsAckNack g (rt r') lastSN e) →
      r' ∈ p.readers.items → e ∈ (f r').effects → e.Asks r.eid g sn → r' = r := by
    intro f rt lastSN e r' sn hf hr' he hasks
    obtain ⟨addr, m, count, -, -, rfl⟩ := hf r' e he
    obtain ⟨-, heid, -⟩ := hasks
    have hget : p.readers.get? r.eid = some r' := Registry.get?_eq_some.2 ⟨hr', heid⟩
    exact Option.some.inj (hget.symm.trans h.mem)
  have hmem := (Registry.get?_eq_some.1 h.mem).1
  cases msg with
  | data sn₀ =>
    have hack : r.notify p.guidPrefix g sn₀ (some src) =
        r.acknowledge g ((r.trackerFor g).record sn₀).1 sn₀ (some src) := by
      rw [notify, if_neg (by simp [h.reliable, h.accepts])]
    refine ⟨r, .refl r, ?_, fun sn => ?_⟩
    · show (p.notifyReliableReaders g sn₀ (some src)).1.readers.get? r.eid = _
      rw [get?_notifyReliableReaders, h.mem, Option.map_some, hack]
      rfl
    · rw [WriterMessage.tell, WriterMessage.last, ← hack]
      constructor
      · rintro ⟨e, he, hasks⟩
        obtain ⟨r', hr', he⟩ := mem_flatMap.1 he
        obtain rfl := hown (fun _ _ => notify_effects) hr' he hasks
        exact ⟨e, he, hasks⟩
      · rintro ⟨e, he, hasks⟩
        exact ⟨e, mem_flatMap.2 ⟨r, hmem, he⟩, hasks⟩
  | heartbeat count now =>
    have hack : r.onHeartbeat p.guidPrefix g (announcement g.entity n count) (some src) now =
        (r.touchLiveliness g now).acknowledge g ((r.trackerFor g).initExpected 1) (ofNat n)
          (some src) := by
      rw [onHeartbeat_of_active h.reliable h.accepts rfl]
      simp only [announcement, snToU64_u64ToSN]
    have htouch := r.sameMatch_touchLiveliness g now
    refine ⟨_, htouch, ?_, fun sn => ?_⟩
    · show (p.handleHeartbeat g (announcement g.entity n count) (some src) now).1.readers.get?
        r.eid = _
      rw [handleHeartbeat, get?_react, h.mem, Option.map_some]
      exact congrArg (fun x : Reaction => some x.reader) hack
    · rw [WriterMessage.tell, WriterMessage.last, ← hack, htouch.eid]
      constructor
      · rintro ⟨e, he, hasks⟩
        obtain ⟨r', hr', he⟩ := mem_flatMap.1 he
        obtain rfl := hown (fun _ _ => onHeartbeat_effects) hr' he hasks
        exact ⟨e, he, hasks⟩
      · rintro ⟨e, he, hasks⟩
        exact ⟨e, mem_flatMap.2 ⟨r, hmem, he⟩, hasks⟩

/-- A DATA or HEARTBEAT of a writer tells the tracker of every reliable reader that listens to it,
and the reader asks for what is then missing. -/
theorem Listens.hear (h : Listens p g r) (n : ℕ) (src : UDPAddr) (msg : WriterMessage) :
    ∃ r', Listens (hear g n src p msg).1 g r' ∧ r'.eid = r.eid ∧
      RecvTracker.SameWindow (msg.tell (r.trackerFor g)) (r'.trackerFor g) ∧
      ∀ sn, (∃ e ∈ (Participant.hear g n src p msg).2, e.Asks r.eid g sn) ↔
        ∃ m, (r'.trackerFor g).missing (msg.last n) = some m ∧ m.needAck ∧
          RecvTracker.Requests m.base m.bitmap sn := by
  obtain ⟨r₀, hsame, hget, hasks⟩ := h.acknowledges n src msg
  have hack := r₀.sameSources_acknowledge g (msg.tell (r.trackerFor g)) (msg.last n) (some src)
  have hwin := r₀.acknowledge_tracker g (msg.tell (r.trackerFor g)) (msg.last n) (some src)
  have hsrc := hsame.sameSources.trans hack
  have hpfx : (Participant.hear g n src p msg).1.guidPrefix = p.guidPrefix := by
    cases msg <;> rfl
  refine ⟨_, ⟨?_, hsrc.reliable.trans h.reliable, ?_⟩, hsrc.eid, hwin, fun sn => ?_⟩
  · rw [hsrc.eid]
    exact hget
  · rw [hpfx, hsrc.acceptsSource]
    exact h.accepts
  · rw [hasks, acknowledge_asks_iff, hwin.missing]

end Participant

end GoDDS
