import Mathlib.Data.Finset.Card
import GoDDS.Rtps.Guid

/-!
# Reliability bookkeeping

`reliable.go`: the sender's history of recent messages and the receiver's tracker of one writer.
-/

namespace GoDDS

open ByteCodec List UInt64

/-! ## The send history -/

/-- The ring of recent messages, with the window of numbers still in it. A slot holds a number and
its message. -/
structure SendHistory where
  ring : Fin 256 → Option (UInt64 × Bytes)
  highest : UInt64
  lowest : UInt64
  any : Bool
  hbCount : Int32
  lowest_le : lowest ≤ highest

def newSendHistory : SendHistory := ⟨fun _ => none, 0, 0, false, 0, UInt64.le_refl 0⟩

variable {A : Finset UInt64} {m : Missing} {fuel : Nat} {rt : RecvTracker}
  {a base e last lastSN seq sn : UInt64}

namespace SendHistory

variable {h : SendHistory} {stores : List (UInt64 × Bytes)} {q : UInt64} {m : Bytes}

def slot (seq : UInt64) : Fin 256 := ⟨seq.toNat % 256, Nat.mod_lt _ (by decide)⟩

theorem toNat_window {lo hi : UInt64} (h : lo ≤ hi) :
    (if hi ≥ 256 then if hi - 256 + 1 > lo then hi - 256 + 1 else lo else lo).toNat =
      max lo.toNat (hi.toNat - 255) := by
  rw [le_iff_toNat_le] at h
  by_cases hbig : hi ≥ 256
  · have hsub : (hi - 256).toNat = hi.toNat - 256 := UInt64.toNat_sub_of_le _ _ hbig
    have hadd : (hi - 256 + 1).toNat = (hi.toNat - 256 + 1) % 2 ^ 64 := by
      rw [UInt64.toNat_add, hsub]
      rfl
    rw [if_pos hbig]
    rw [ge_iff_le, le_iff_toNat_le] at hbig
    change 256 ≤ hi.toNat at hbig
    have hlt := hi.toNat_lt
    split_ifs with hwin <;> rw [gt_iff_lt, lt_iff_toNat_lt] at hwin <;> omega
  · rw [if_neg hbig]
    rw [ge_iff_le, le_iff_toNat_le] at hbig
    change ¬ 256 ≤ hi.toNat at hbig
    omega

theorem window_le {lo hi : UInt64} (h : lo ≤ hi) :
    (if hi ≥ 256 then if hi - 256 + 1 > lo then hi - 256 + 1 else lo else lo) ≤ hi := by
  rw [le_iff_toNat_le, toNat_window h]
  rw [le_iff_toNat_le] at h
  omega

theorem lowest_le_highest (h : SendHistory) (seq : UInt64) : (if h.any then h.lowest else seq) ≤
      if seq > (if h.any then h.highest else seq) then seq
      else if h.any then h.highest else seq := by
  by_cases hany : h.any = true
  · rw [if_pos hany, if_pos hany]
    split_ifs with hgt
    · exact UInt64.le_trans h.lowest_le (UInt64.le_of_lt hgt)
    · exact h.lowest_le
  · rw [if_neg hany, if_neg hany, ite_self]
    exact UInt64.le_refl _

def store (h : SendHistory) (seq : UInt64) (msg : Bytes) : SendHistory :=
  let lowest := if h.any then h.lowest else seq
  let highest := if h.any then h.highest else seq
  let highest := if seq > highest then seq else highest
  let lowest :=
    if highest ≥ 256 then
      if highest - 256 + 1 > lowest then highest - 256 + 1 else lowest
    else lowest
  { h with
    ring := Function.update h.ring (slot seq) (some (seq, msg))
    highest := highest
    lowest := lowest
    any := true
    lowest_le := window_le (h.lowest_le_highest seq) }

def get (h : SendHistory) (seq : UInt64) : Option Bytes :=
  if !h.any || seq < h.lowest || seq > h.highest then none
  else
    match h.ring (slot seq) with
    | some (sn, msg) => if sn = seq then some msg else none
    | none => none

/-- The first and the last number that can be sent again. -/
def firstLast (h : SendHistory) : Option (UInt64 × UInt64) :=
  if h.any then some (h.lowest, h.highest) else none

theorem get_eq_some : h.get q = some m ↔ h.any = true ∧ h.lowest ≤ q ∧ q ≤ h.highest ∧
    h.ring (slot q) = some (q, m) := by
  unfold get
  split_ifs with hout
  · refine iff_of_false (by simp) fun hin => ?_
    simp [hin.1, UInt64.not_lt.2 hin.2.1, UInt64.not_lt.2 hin.2.2.1] at hout
  · simp only [Bool.or_eq_true, Bool.not_eq_true', decide_eq_true_iff, not_or, Bool.not_eq_false,
      gt_iff_lt, UInt64.not_lt] at hout
    simp only [hout.1.1, hout.1.2, hout.2, true_and]
    cases hring : h.ring (slot q) with
    | none => simp
    | some x => by_cases hsn : x.1 = q <;> simp [hsn, Prod.ext_iff]

theorem highest_store (msg : Bytes) (hseq : h.any = true → h.highest ≤ seq) :
    (h.store seq msg).highest = seq := by
  simp only [store]
  cases hany : h.any with
  | false => simp
  | true =>
    simp only [if_true]
    split_ifs with hgt
    · rfl
    · exact UInt64.le_antisymm (hseq hany) (UInt64.not_lt.1 hgt)

theorem lowest_store (msg : Bytes) (hseq : h.any = true → h.highest ≤ seq) :
    (h.store seq msg).lowest.toNat =
      max (if h.any then h.lowest else seq).toNat (seq.toNat - 255) := by
  have hhigh : (if seq > (if h.any then h.highest else seq) then seq
      else if h.any then h.highest else seq) = seq := highest_store msg hseq
  exact (toNat_window (h.lowest_le_highest seq)).trans (by rw [hhigh])

structure Holds (stores : List (UInt64 × Bytes)) (h : SendHistory) : Prop where
  any : h.any = true ↔ stores ≠ []
  highest : ∀ x ∈ stores.getLast?, h.highest = x.1
  lowest : ∀ x ∈ stores.head?, h.lowest.toNat = max x.1.toNat (h.highest.toNat - 255)
  ring : ∀ i x, h.ring i = some x → x ∈ stores
  kept : ∀ x ∈ stores, h.highest.toNat < x.1.toNat + 256 → h.ring (slot x.1) = some x

theorem Holds.store {x : UInt64 × Bytes} (hh : Holds stores h)
    (hlt : ∀ y ∈ stores, y.1 < x.1) : Holds (stores ++ [x]) (h.store x.1 x.2) := by
  have hnew : h.any = true → h.highest < x.1 := fun hany => by
    have hne := hh.any.1 hany
    rw [hh.highest _ (getLast?_eq_some_getLast hne)]
    exact hlt _ (getLast_mem hne)
  have hle : h.any = true → h.highest ≤ x.1 := fun hany => UInt64.le_of_lt (hnew hany)
  have hhigh := highest_store x.2 hle
  refine ⟨by simp [SendHistory.store], by simp [hhigh], ?_, fun i y hy => ?_, fun y hy hwin => ?_⟩
  · rw [lowest_store x.2 hle, hhigh]
    cases stores with
    | nil => simp [show h.any = false by simpa using hh.any]
    | cons y rest =>
      have hany := hh.any.2 (cons_ne_nil y rest)
      have := lt_iff_toNat_lt.1 (hnew hany)
      simp only [hany, if_true, hh.lowest y rfl, cons_append, head?_cons, Option.mem_def,
        Option.some.injEq, forall_eq']
      omega
  · change Function.update h.ring (slot x.1) (some x) i = some y at hy
    rw [Function.update_apply] at hy
    split_ifs at hy
    · simp [Option.some.inj hy]
    · exact mem_append_left _ (hh.ring i y hy)
  · change Function.update h.ring (slot x.1) (some x) _ = _
    rcases mem_append.1 hy with hy | hy
    · -- in the window the two have different slots
      have hyx := lt_iff_toNat_lt.1 (hlt y hy)
      have hxh := lt_iff_toNat_lt.1 (hnew (hh.any.2 (ne_nil_of_mem hy)))
      rw [hhigh] at hwin
      have hslot : slot y.1 ≠ slot x.1 := fun heq => by
        have hmod : y.1.toNat % 256 = x.1.toNat % 256 := congrArg Fin.val heq
        omega
      rw [Function.update_of_ne hslot, hh.kept y hy (by omega)]
    · rw [mem_singleton.1 hy, Function.update_self]

theorem holds_foldl (hinc : stores.Pairwise (·.1 < ·.1)) :
    Holds stores (stores.foldl (fun h x => h.store x.1 x.2) newSendHistory) := by
  induction stores using List.reverseRecOn with
  | nil => exact ⟨by simp [newSendHistory], by simp, by simp, by simp [newSendHistory], by simp⟩
  | append_singleton stores x ih =>
    rw [pairwise_append] at hinc
    rw [foldl_concat]
    exact (ih hinc.1).store fun y hy => hinc.2.2 y hy x mem_cons_self

/-- After stores under increasing numbers, with or without gaps, the history holds exactly the
messages of the last 256 numbers, and says so. -/
theorem history_window (hinc : stores.Pairwise (·.1 < ·.1))
    {first last : UInt64 × Bytes} (hfirst : stores.head? = some first)
    (hlast : stores.getLast? = some last) :
    let h := stores.foldl (fun h x => h.store x.1 x.2) newSendHistory
    (∀ q msg, h.get q = some msg ↔ (q, msg) ∈ stores ∧ last.1.toNat < q.toNat + 256) ∧
      ∃ lowest, h.firstLast = some (lowest, last.1) ∧
        lowest.toNat = max first.1.toNat (last.1.toNat - 255) := by
  intro h
  have hh : Holds stores h := holds_foldl hinc
  have hany : h.any = true := hh.any.2 fun hnil => by simp [hnil] at hfirst
  have hhigh := hh.highest last hlast
  have hlow := hh.lowest first hfirst
  rw [hhigh] at hlow
  refine ⟨fun q msg => ?_, h.lowest, by rw [firstLast, if_pos hany, hhigh], hlow⟩
  rw [get_eq_some, hhigh, le_iff_toNat_le, le_iff_toNat_le, hlow]
  constructor
  · rintro ⟨-, hq, hq', hring⟩
    exact ⟨hh.ring _ _ hring, by omega⟩
  · rintro ⟨hmem, hq⟩
    have hge : first.1.toNat ≤ q.toNat := by
      obtain ⟨rest, rfl⟩ := head?_eq_some_iff.1 hfirst
      rcases mem_cons.1 hmem with rfl | hmem
      · exact le_rfl
      · exact (lt_iff_toNat_lt.1 (rel_of_pairwise_cons hinc hmem)).le
    have hle : q.toNat ≤ last.1.toNat := by
      obtain ⟨init, rfl⟩ := getLast?_eq_some_iff.1 hlast
      rcases mem_append.1 hmem with hmem | hmem
      · exact (lt_iff_toNat_lt.1 ((pairwise_append.1 hinc).2.2 _ hmem _ mem_cons_self)).le
      · rw [← mem_singleton.1 hmem]
    exact ⟨hany, by omega, hle, hh.kept _ hmem (hhigh ▸ hq)⟩

theorem history_window_two :
    ([(1, [7]), (300, [8])].foldl (fun h x => h.store x.1 x.2) newSendHistory).get 300 =
      some [8] := by
  have hinc : ([(1, [7]), (300, [8])] : List (UInt64 × Bytes)).Pairwise (·.1 < ·.1) := by decide
  exact ((history_window hinc rfl rfl).1 300 [8]).2 ⟨by decide, by decide⟩

end SendHistory

/-! ## The receive tracker -/

def maxReorderAhead : UInt64 := 8192

/-- The watermark of one writer, and what has come in ahead of it. -/
structure RecvTracker where
  expected : UInt64
  ahead : Finset UInt64
  initDone : Bool
  ackCount : Int32
  ahead_gt : ∀ s ∈ ahead, expected < s
  ahead_init : initDone = false → ahead = ∅

namespace RecvTracker

def new : RecvTracker := ⟨0, ∅, false, 0, by simp, by simp⟩

/-- Step the watermark over numbers that have arrived. Each step takes one out of `ahead`: its size
is enough fuel. -/
def advance : Nat → UInt64 → Finset UInt64 → UInt64 × Finset UInt64
  | 0, expected, ahead => (expected, ahead)
  | fuel + 1, expected, ahead =>
    if expected ∈ ahead then advance fuel (expected + 1) (ahead.erase expected)
    else (expected, ahead)

theorem lt_succ_of_ne {b : UInt64} (h : a ≤ b) (hne : a ≠ b) : a + 1 ≤ b := by
  have hlt : a < b := UInt64.lt_of_le_of_ne h hne
  rw [le_iff_toNat_le, UInt64.toNat_add]
  rw [lt_iff_toNat_lt] at hlt
  have := b.toNat_lt
  show (a.toNat + 1) % 2 ^ 64 ≤ _
  omega

theorem advance_gt (hcard : A.card ≤ fuel) (hA : ∀ s ∈ A, e ≤ s) :
    ∀ s ∈ (advance fuel e A).2, (advance fuel e A).1 < s := by
  induction fuel generalizing e A with
  | zero =>
    have hempty : A = ∅ := Finset.card_eq_zero.1 (by omega)
    simp [advance, hempty]
  | succ fuel ih =>
    by_cases he : e ∈ A
    · rw [advance, if_pos he]
      have hlt : (A.erase e).card < A.card := Finset.card_erase_lt_of_mem he
      refine ih (by omega) fun s hs => ?_
      obtain ⟨hne, hs⟩ := Finset.mem_erase.1 hs
      exact lt_succ_of_ne (hA s hs) (Ne.symm hne)
    · rw [advance, if_neg he]
      exact fun s hs => UInt64.lt_of_le_of_ne (hA s hs) fun h : e = s => he (h ▸ hs)

def initExpected (rt : RecvTracker) (firstSN : UInt64) : RecvTracker :=
  if h : rt.initDone = false then
    { rt with
      expected := firstSN
      initDone := true
      ahead_gt := by simp [rt.ahead_init h]
      ahead_init := by simp }
  else rt

@[simp] theorem initDone_initExpected (rt : RecvTracker) (firstSN : UInt64) :
    (rt.initExpected firstSN).initDone := by
  unfold initExpected
  split_ifs with h
  · rfl
  · exact eq_true_of_ne_false h

/-- A number is recorded, and the watermark moves on if it can. -/
def record (rt : RecvTracker) (seq : UInt64) : RecvTracker × Bool :=
  let rt' := rt.initExpected seq
  if hlt : seq < rt'.expected then (rt', false)
  else if heq : seq = rt'.expected then
    ({ rt' with
        expected := (advance rt'.ahead.card (rt'.expected + 1) rt'.ahead).1
        ahead := (advance rt'.ahead.card (rt'.expected + 1) rt'.ahead).2
        ahead_gt := advance_gt le_rfl fun s hs =>
          lt_succ_of_ne (UInt64.le_of_lt (rt'.ahead_gt s hs)) (UInt64.ne_of_lt (rt'.ahead_gt s hs))
        ahead_init := fun h => by simp [rt'.ahead_init h, advance] }, true)
  else if seq ∈ rt'.ahead then (rt', false)
  else if seq - rt'.expected ≤ maxReorderAhead then
    ({ rt' with
        ahead := insert seq rt'.ahead
        ahead_gt := fun s hs => (Finset.mem_insert.1 hs).elim
          (fun h => h ▸ UInt64.lt_of_le_of_ne (UInt64.not_lt.1 hlt) (Ne.symm heq))
          (rt'.ahead_gt s)
        ahead_init := fun h => absurd h (by simp [rt']) }, true)
  else (rt', true)

/-- The largest sequence number. Recording it would wrap the watermark around. -/
def maxSN : UInt64 := 0xFFFFFFFFFFFFFFFF

theorem lt_succ_of_ne_max (h : a ≠ maxSN) : a < a + 1 := by
  have hne : a.toNat ≠ 18446744073709551615 := fun hn => h (UInt64.toNat_inj.1 hn)
  have := a.toNat_lt
  rw [lt_iff_toNat_lt, UInt64.toNat_add]
  show a.toNat < (a.toNat + 1) % 2 ^ 64
  omega

theorem advance_keeps (hmax : maxSN ∉ A) : e ≤ (advance fuel e A).1 ∧ (advance fuel e A).2 ⊆ A ∧
      ∀ s ∈ A, s ∈ (advance fuel e A).2 ∨ s < (advance fuel e A).1 := by
  induction fuel generalizing e A with
  | zero => exact ⟨UInt64.le_refl _, subset_rfl, fun s hs => .inl hs⟩
  | succ fuel ih =>
    by_cases he : e ∈ A
    · rw [advance, if_pos he]
      have hlt : e < e + 1 := lt_succ_of_ne_max fun h => hmax (h ▸ he)
      obtain ⟨hle, hsub, hkeep⟩ :=
        ih (e := e + 1) (A := A.erase e) fun h => hmax (Finset.mem_of_mem_erase h)
      refine ⟨UInt64.le_trans (UInt64.le_of_lt hlt) hle,
        hsub.trans (Finset.erase_subset _ _), fun s hs => ?_⟩
      by_cases hse : s = e
      · rw [hse]
        exact .inr (UInt64.lt_of_lt_of_le hlt hle)
      · exact hkeep s (Finset.mem_erase.2 ⟨hse, hs⟩)
    · rw [advance, if_neg he]
      exact ⟨UInt64.le_refl _, subset_rfl, fun s hs => .inl hs⟩

theorem record_cases (rt : RecvTracker) (seq : UInt64) :
    let rt' := rt.initExpected seq
    let adv := advance rt'.ahead.card (rt'.expected + 1) rt'.ahead
    ((rt.record seq).1 = rt' ∧ (seq < rt'.expected ∨ seq ∈ rt'.ahead ∨
        rt'.expected < seq ∧ maxReorderAhead < seq - rt'.expected)) ∨
      (seq = rt'.expected ∧ (rt.record seq).1.initDone ∧
        (rt.record seq).1.expected = adv.1 ∧ (rt.record seq).1.ahead = adv.2) ∨
      (rt'.expected < seq ∧ (rt.record seq).1.initDone ∧
        (rt.record seq).1.expected = rt'.expected ∧
        (rt.record seq).1.ahead = insert seq rt'.ahead) := by
  intro rt' adv
  have hinit : rt'.initDone := initDone_initExpected rt seq
  unfold record
  dsimp only
  split_ifs with hlt heq hmem hnear
  · exact .inl ⟨rfl, .inl hlt⟩
  · exact .inr (.inl ⟨heq, hinit, rfl, rfl⟩)
  · exact .inl ⟨rfl, .inr (.inl hmem)⟩
  · exact .inr (.inr ⟨UInt64.lt_of_le_of_ne (UInt64.not_lt.1 hlt) (Ne.symm heq), hinit, rfl, rfl⟩)
  · exact .inl ⟨rfl, .inr (.inr ⟨UInt64.lt_of_le_of_ne (UInt64.not_lt.1 hlt)
      (Ne.symm heq), UInt64.not_le.1 hnear⟩)⟩

theorem initDone_record (rt : RecvTracker) (seq : UInt64) : (rt.record seq).1.initDone := by
  rcases record_cases rt seq with ⟨hr, -⟩ | ⟨-, hinit, -⟩ | ⟨-, hinit, -⟩
  · rw [hr]
    exact initDone_initExpected rt seq
  · exact hinit
  · exact hinit

def Received (rt : RecvTracker) (sn : UInt64) : Prop :=
  rt.initDone = true ∧ (sn < rt.expected ∨ sn ∈ rt.ahead)
  deriving Decidable

theorem initExpected_of_initDone (h : rt.initDone) (sn : UInt64) : rt.initExpected sn = rt := by
  rw [initExpected, dif_neg (by simp [h])]

theorem ahead_initExpected (rt : RecvTracker) (sn : UInt64) :
    (rt.initExpected sn).ahead = rt.ahead := by
  unfold initExpected
  split_ifs <;> rfl

theorem received_initExpected (h : rt.Received sn) (first : UInt64) :
    (rt.initExpected first).Received sn := by
  rw [initExpected_of_initDone h.1]
  exact h

theorem maxSN_notMem_record (hmax : maxSN ∉ rt.ahead) (hseq : seq ≠ maxSN) :
    maxSN ∉ (rt.record seq).1.ahead := by
  rw [← ahead_initExpected rt seq] at hmax
  rcases record_cases rt seq with ⟨hr, -⟩ | ⟨-, -, -, ha⟩ | ⟨-, -, -, ha⟩
  · rwa [hr]
  · rw [ha]
    exact fun h => hmax ((advance_keeps hmax).2.1 h)
  · rw [ha, Finset.mem_insert, not_or]
    exact ⟨Ne.symm hseq, hmax⟩

theorem expected_le_record (hinit : rt.initDone) (hmax : maxSN ∉ rt.ahead)
    (hseq : seq ≠ maxSN) : rt.expected ≤ (rt.record seq).1.expected := by
  have hcases := record_cases rt seq
  simp only [initExpected_of_initDone hinit] at hcases
  rcases hcases with ⟨hr, -⟩ | ⟨heq, -, he, -⟩ | ⟨-, -, he, -⟩
  · rw [hr]
    exact UInt64.le_refl _
  · rw [he]
    exact UInt64.le_trans (UInt64.le_of_lt (lt_succ_of_ne_max (heq ▸ hseq))) (advance_keeps hmax).1
  · rw [he]
    exact UInt64.le_refl _

theorem received_record (h : rt.Received sn) (hmax : maxSN ∉ rt.ahead) (hseq : seq ≠ maxSN) :
    (rt.record seq).1.Received sn := by
  have hle := expected_le_record h.1 hmax hseq
  have hcases := record_cases rt seq
  simp only [initExpected_of_initDone h.1] at hcases
  rcases hcases with ⟨hr, -⟩ | ⟨-, hinit, he, ha⟩ | ⟨-, hinit, -, ha⟩
  · rw [hr]
    exact h
  · refine ⟨hinit, ?_⟩
    rcases h.2 with hlt | hmem
    · exact .inl (UInt64.lt_of_lt_of_le hlt hle)
    · rw [he, ha]
      exact ((advance_keeps hmax).2.2 sn hmem).symm
  · refine ⟨hinit, ?_⟩
    rcases h.2 with hlt | hmem
    · exact .inl (UInt64.lt_of_lt_of_le hlt hle)
    · rw [ha]
      exact .inr (Finset.mem_insert_of_mem hmem)

theorem received_record_self (hmax : maxSN ∉ rt.ahead) (hseq : seq ≠ maxSN)
    (hnear : rt.initDone → rt.expected < seq → seq - rt.expected ≤ maxReorderAhead) :
    (rt.record seq).1.Received seq := by
  rw [← ahead_initExpected rt seq] at hmax
  have hnear' : (rt.initExpected seq).expected < seq →
      seq - (rt.initExpected seq).expected ≤ maxReorderAhead := by
    unfold initExpected
    split_ifs with hinit
    · exact fun h => absurd h (UInt64.lt_irrefl _)
    · exact hnear (eq_true_of_ne_false hinit)
  rcases record_cases rt seq with ⟨hr, hwhy⟩ | ⟨heq, hinit, he, -⟩ | ⟨-, hinit, -, ha⟩
  · rw [hr]
    refine ⟨initDone_initExpected rt seq, ?_⟩
    rcases hwhy with hlt | hmem | ⟨hlt, hfar⟩
    · exact .inl hlt
    · exact .inr hmem
    · exact absurd (hnear' hlt) (UInt64.not_le.2 hfar)
  · refine ⟨hinit, .inl ?_⟩
    rw [he]
    exact UInt64.lt_of_lt_of_le (heq ▸ lt_succ_of_ne_max hseq) (advance_keeps hmax).1
  · refine ⟨hinit, .inr ?_⟩
    rw [ha]
    exact Finset.mem_insert_self _ _

/-! ### Acknowledgements -/

structure Missing where
  base : UInt64
  bitmap : UInt32
  needAck : Bool
  deriving DecidableEq

/-- Bit `n` of a 32-bit word; no bit when the shift is too wide. -/
def bit32 (n : UInt64) : UInt32 := if n < 32 then 1 <<< n.toUInt32 else 0

/-- The scan of the window. If `last` is the largest number the loop variable wraps around: it runs
out of fuel. -/
def missingLoop (ahead : Finset UInt64) (base last : UInt64) :
    Nat → UInt64 → UInt32 → Bool → Option (UInt32 × Bool)
  | 0, _, _, _ => none
  | fuel + 1, sn, bitmap, needAck =>
    if sn ≤ last then
      if sn ∈ ahead then missingLoop ahead base last fuel (sn + 1) bitmap needAck
      else missingLoop ahead base last fuel (sn + 1) (bitmap ||| bit32 (sn - base)) true
    else some (bitmap, needAck)

def windowEnd (base lastSN : UInt64) : UInt64 := if lastSN > base + 31 then base + 31 else lastSN

/-- What is missing up to `lastSN`, within a window of 32 numbers: the loop takes at most 33 turns
or does not end at all. -/
def missing (rt : RecvTracker) (lastSN : UInt64) : Option Missing :=
  if !rt.initDone then some ⟨0, 0, false⟩
  else if lastSN < rt.expected then some ⟨rt.expected, 0, false⟩
  else
    (missingLoop rt.ahead rt.expected (windowEnd rt.expected lastSN) 33 rt.expected 0 false).map
      fun r => ⟨rt.expected, r.1, r.2⟩

def nextAckCount (rt : RecvTracker) : RecvTracker × Int32 :=
  ({ rt with ackCount := rt.ackCount + 1 }, rt.ackCount + 1)

def Requests (base : UInt64) (bitmap : UInt32) (sn : UInt64) : Prop :=
  ∃ n < 32, bitmap.toNat.testBit n = true ∧ sn = base + UInt64.ofNat n

instance (base : UInt64) (bitmap : UInt32) (sn : UInt64) : Decidable (Requests base bitmap sn) :=
  inferInstanceAs (Decidable (∃ n < 32, bitmap.toNat.testBit n = true ∧ sn = base + UInt64.ofNat n))

theorem missingLoop_maxSN (fuel : Nat) (sn : UInt64) (bm : UInt32) (na : Bool) :
    missingLoop A base maxSN fuel sn bm na = none := by
  induction fuel generalizing sn bm na with
  | zero => rfl
  | succ fuel ih =>
    have hle : sn ≤ maxSN := by
      rw [le_iff_toNat_le]
      exact Nat.le_of_lt_succ sn.toNat_lt
    rw [missingLoop, if_pos hle, ih, ih, ite_self]

theorem le_iff_eq_or_succ_le {b : UInt64} (ha : a ≠ maxSN) : a ≤ b ↔ b = a ∨ a + 1 ≤ b := by
  constructor
  · intro h
    by_cases hab : a = b
    · exact .inl hab.symm
    · exact .inr (lt_succ_of_ne h hab)
  · rintro (rfl | h)
    · exact UInt64.le_refl _
    · exact UInt64.le_trans (UInt64.le_of_lt (lt_succ_of_ne_max ha)) h

theorem exists_scan_iff {P : UInt64 → Prop} (hle : sn ≤ last) (hlast : last ≠ maxSN) :
    (∃ k, sn ≤ k ∧ k ≤ last ∧ P k) ↔ P sn ∨ ∃ k, sn + 1 ≤ k ∧ k ≤ last ∧ P k := by
  have hsn : sn ≠ maxSN := by
    rintro rfl
    refine hlast (UInt64.le_antisymm ?_ hle)
    rw [le_iff_toNat_le]
    exact Nat.le_of_lt_succ last.toNat_lt
  constructor
  · rintro ⟨k, hk, hkl, hP⟩
    rcases (le_iff_eq_or_succ_le hsn).1 hk with rfl | hk
    · exact .inl hP
    · exact .inr ⟨k, hk, hkl, hP⟩
  · rintro (hP | ⟨k, hk, hkl, hP⟩)
    · exact ⟨sn, UInt64.le_refl _, hle, hP⟩
    · exact ⟨k, (le_iff_eq_or_succ_le hsn).2 (.inr hk), hkl, hP⟩

theorem testBit_bit32 (k : UInt64) (n : Nat) :
    (bit32 k).toNat.testBit n ↔ k.toNat = n ∧ n < 32 := by
  unfold bit32
  split_ifs with hk
  · rw [lt_iff_toNat_lt] at hk
    change k.toNat < 32 at hk
    have hmod : k.toNat % 2 ^ 32 % 32 = k.toNat := by omega
    have hpow : (1 <<< k.toUInt32 : UInt32).toNat = 2 ^ k.toNat := by
      rw [UInt32.toNat_shiftLeft, toNat_toUInt32]
      show 1 <<< (k.toNat % 2 ^ 32 % 32) % 2 ^ 32 = _
      rw [hmod, Nat.one_shiftLeft, Nat.mod_eq_of_lt (Nat.pow_lt_pow_right (by decide) hk)]
    rw [hpow, Nat.testBit_two_pow, decide_eq_true_iff]
    omega
  · rw [lt_iff_toNat_lt] at hk
    change ¬ k.toNat < 32 at hk
    have hzero : Nat.testBit (0 : UInt32).toNat n = false := Nat.zero_testBit n
    simp only [hzero, Bool.false_eq_true, false_iff]
    omega

theorem missingLoop_eq_some {bm bm' : UInt32} {na na' : Bool}
    (h : missingLoop A base last fuel sn bm na = some (bm', na')) :
    (∀ n, bm'.toNat.testBit n ↔ bm.toNat.testBit n ∨
        ∃ k, sn ≤ k ∧ k ≤ last ∧ k ∉ A ∧ (k - base).toNat = n ∧ n < 32) ∧
      (na' ↔ na ∨ ∃ k, sn ≤ k ∧ k ≤ last ∧ k ∉ A) := by
  induction fuel generalizing sn bm na with
  | zero => simp [missingLoop] at h
  | succ fuel ih =>
    have hlast : last ≠ maxSN := by
      rintro rfl
      rw [missingLoop_maxSN] at h
      cases h
    rw [missingLoop] at h
    split_ifs at h with hle hmem
    · obtain ⟨hbits, hneed⟩ := ih h
      refine ⟨fun n => ?_, ?_⟩
      · rw [hbits n, exists_scan_iff hle hlast]
        simp [hmem]
      · rw [hneed, exists_scan_iff hle hlast]
        simp [hmem]
    · obtain ⟨hbits, hneed⟩ := ih h
      refine ⟨fun n => ?_, ?_⟩
      · rw [hbits n, exists_scan_iff hle hlast, UInt32.toNat_or, Nat.testBit_or, Bool.or_eq_true,
          testBit_bit32, or_assoc]
        simp [hmem]
      · rw [hneed, exists_scan_iff hle hlast]
        simp [hmem]
    · obtain ⟨rfl, rfl⟩ := Prod.mk.inj (Option.some.inj h)
      have hnone : ∀ k, sn ≤ k → ¬ k ≤ last := fun k hk hkl => hle (UInt64.le_trans hk hkl)
      refine ⟨fun n => ?_, ?_⟩
      all_goals
        refine (or_iff_left ?_).symm
        rintro ⟨k, hk, hkl, -⟩
        exact hnone k hk hkl

theorem missingLoop_isSome (bm : UInt32) (na : Bool) (hlast : last ≠ maxSN)
    (hfuel : last.toNat + 1 - sn.toNat < fuel) :
    (missingLoop A base last fuel sn bm na).isSome := by
  induction fuel generalizing sn bm na with
  | zero => omega
  | succ fuel ih =>
    rw [missingLoop]
    by_cases hle : sn ≤ last
    · have hlt := lt_succ_of_ne_max (a := sn) fun h => hlast (UInt64.le_antisymm
        (by rw [le_iff_toNat_le]; exact Nat.le_of_lt_succ last.toNat_lt) (h ▸ hle))
      have hfuel' : last.toNat + 1 - (sn + 1).toNat < fuel := by
        rw [le_iff_toNat_le] at hle
        rw [lt_iff_toNat_lt] at hlt
        omega
      rw [if_pos hle]
      split_ifs
      all_goals exact ih _ _ hfuel'
    · rw [if_neg hle]
      rfl

theorem toNat_add_31 (e : UInt64) : (e + 31).toNat = (e.toNat + 31) % 2 ^ 64 := by
  rw [UInt64.toNat_add]
  rfl

theorem missing_eq_none_iff (rt : RecvTracker) (lastSN : UInt64) : rt.missing lastSN = none ↔
      rt.initDone ∧ rt.expected.toNat = 2 ^ 64 - 32 ∧ lastSN = maxSN := by
  have hmaxNat : maxSN.toNat = 2 ^ 64 - 1 := rfl
  have he := rt.expected.toNat_lt
  have hl := lastSN.toNat_lt
  have hadd := toNat_add_31 rt.expected
  unfold missing
  by_cases hinit : rt.initDone
  · simp only [hinit, Bool.not_true, Bool.false_eq_true, if_false, true_and]
    by_cases hlt : lastSN < rt.expected
    · rw [if_pos hlt]
      rw [lt_iff_toNat_lt] at hlt
      simp only [reduceCtorEq, false_iff, not_and]
      rintro - rfl
      omega
    · rw [if_neg hlt, Option.map_eq_none_iff, windowEnd]
      rw [lt_iff_toNat_lt] at hlt
      by_cases hbig : lastSN > rt.expected + 31
      · rw [if_pos hbig]
        rw [gt_iff_lt, lt_iff_toNat_lt] at hbig
        have hne : rt.expected + 31 ≠ maxSN := fun h => by
          rw [h, hmaxNat] at hbig
          omega
        have hsome : (missingLoop rt.ahead rt.expected (rt.expected + 31) 33 rt.expected 0
            false).isSome := missingLoop_isSome 0 false hne (by omega)
        rw [Option.isSome_iff_ne_none] at hsome
        simp only [hsome, false_iff, not_and]
        rintro h32 rfl
        omega
      · rw [if_neg hbig]
        rw [gt_iff_lt, lt_iff_toNat_lt] at hbig
        constructor
        · intro hnone
          by_contra hcon
          have hne : lastSN ≠ maxSN := fun h => hcon ⟨by rw [h, hmaxNat] at hbig; omega, h⟩
          have hsome : (missingLoop rt.ahead rt.expected lastSN 33 rt.expected 0 false).isSome =
              true := missingLoop_isSome 0 false hne (by omega)
          rw [hnone] at hsome
          cases hsome
        · rintro ⟨-, rfl⟩
          exact missingLoop_maxSN _ _ _ _
  · simp [hinit]

theorem le_of_missing_needAck (h : rt.missing lastSN = some m) (hneed : m.needAck) :
    rt.initDone ∧ m.base = rt.expected ∧ rt.expected ≤ lastSN := by
  unfold missing at h
  split_ifs at h with hinit hlt
  · obtain rfl := Option.some.inj h
    cases hneed
  · obtain rfl := Option.some.inj h
    cases hneed
  · obtain ⟨r, -, rfl⟩ := Option.map_eq_some_iff.1 h
    exact ⟨by simpa using hinit, rfl, UInt64.not_lt.1 hlt⟩

theorem le_window_iff {k : UInt64} (hno : e.toNat + 31 < 2 ^ 64) :
    k ≤ windowEnd e lastSN ↔ k ≤ lastSN ∧ k.toNat ≤ e.toNat + 31 := by
  have hadd := toNat_add_31 e
  rw [Nat.mod_eq_of_lt hno] at hadd
  unfold windowEnd
  simp only [gt_iff_lt, lt_iff_toNat_lt, le_iff_toNat_le]
  split_ifs <;> omega

theorem base_of_missing (h : rt.missing lastSN = some m) (hinit : rt.initDone) :
    m.base = rt.expected := by
  unfold missing at h
  rw [if_neg (by simp [hinit])] at h
  split_ifs at h
  · rw [← Option.some.inj h]
  · obtain ⟨r, -, rfl⟩ := Option.map_eq_some_iff.1 h
    rfl

theorem testBit_missing_iff (h : rt.missing lastSN = some m) (hinit : rt.initDone)
    (hno : rt.expected.toNat + 31 < 2 ^ 64) (hle : rt.expected ≤ lastSN) {n : Nat} (hn : n < 32) :
    m.bitmap.toNat.testBit n ↔
      rt.expected.toNat + n ≤ lastSN.toNat ∧ rt.expected + ofNat n ∉ rt.ahead := by
  unfold missing at h
  rw [if_neg (by simp [hinit]), if_neg (UInt64.not_lt.2 hle)] at h
  obtain ⟨⟨bm, na⟩, hloop, rfl⟩ := Option.map_eq_some_iff.1 h
  have hzero : Nat.testBit (0 : UInt32).toNat n = false := Nat.zero_testBit n
  have hsum : (rt.expected + UInt64.ofNat n).toNat = rt.expected.toNat + n := by
    rw [UInt64.toNat_add, UInt64.toNat_ofNat']
    omega
  rw [(missingLoop_eq_some hloop).1 n, hzero]
  simp only [Bool.false_eq_true, false_or, le_window_iff hno]
  constructor
  · rintro ⟨k, hk, ⟨hkl, -⟩, hkA, hkn, -⟩
    rw [UInt64.toNat_sub_of_le _ _ hk] at hkn
    rw [le_iff_toNat_le] at hk hkl
    have hkeq : rt.expected + UInt64.ofNat n = k := UInt64.toNat_inj.1 (by omega)
    rw [hkeq]
    exact ⟨by omega, hkA⟩
  · rintro ⟨hlast, hmem⟩
    have hk : rt.expected ≤ rt.expected + ofNat n := by
      rw [le_iff_toNat_le]
      omega
    refine ⟨_, hk, ⟨?_, by omega⟩, hmem, ?_, hn⟩
    · rw [le_iff_toNat_le]
      omega
    · rw [UInt64.toNat_sub_of_le _ _ hk]
      omega

theorem requests_missing_iff (h : rt.missing lastSN = some m) (hinit : rt.initDone)
    (hno : rt.expected.toNat + 31 < 2 ^ 64) (sn : UInt64) : Requests m.base m.bitmap sn ↔
      rt.expected ≤ sn ∧ sn ≤ lastSN ∧ sn.toNat ≤ rt.expected.toNat + 31 ∧ sn ∉ rt.ahead := by
  by_cases hlt : lastSN < rt.expected
  · simp only [missing, hinit, hlt] at h
    obtain rfl := Option.some.inj h
    have hzero : ∀ n, Nat.testBit (0 : UInt32).toNat n = false := Nat.zero_testBit
    constructor
    · rintro ⟨n, -, hbit, -⟩
      rw [hzero] at hbit
      cases hbit
    · rintro ⟨hle, hle', -⟩
      exact absurd (UInt64.le_trans hle hle') (UInt64.not_le.2 hlt)
  · have hle := UInt64.not_lt.1 hlt
    have hsum : ∀ n < 32, (rt.expected + UInt64.ofNat n).toNat = rt.expected.toNat + n := by
      intro n hn
      rw [UInt64.toNat_add, UInt64.toNat_ofNat']
      omega
    rw [Requests, base_of_missing h hinit]
    constructor
    · rintro ⟨n, hn, hbit, rfl⟩
      obtain ⟨hlast, hmem⟩ := (testBit_missing_iff h hinit hno hle hn).1 hbit
      have := hsum n hn
      rw [le_iff_toNat_le, le_iff_toNat_le]
      exact ⟨by omega, by omega, by omega, hmem⟩
    · rintro ⟨hk, hkl, hkw, hmem⟩
      rw [le_iff_toNat_le] at hk hkl
      have hn : sn.toNat - rt.expected.toNat < 32 := by omega
      have hsn : rt.expected + UInt64.ofNat (sn.toNat - rt.expected.toNat) = sn :=
        UInt64.toNat_inj.1 (by rw [hsum _ hn]; omega)
      refine ⟨_, hn, (testBit_missing_iff h hinit hno hle hn).2 ⟨by omega, ?_⟩, hsn.symm⟩
      rwa [hsn]

end RecvTracker

end GoDDS
