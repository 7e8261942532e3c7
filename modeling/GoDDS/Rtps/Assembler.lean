import Mathlib.Data.List.GetD
import GoDDS.Lib.Registry
import GoDDS.Lib.Run
import GoDDS.Rtps.Fragment

/-!
# Reassembly

The receiving half of `fragment.go`. Index arithmetic is that of 32-bit words.
-/

namespace GoDDS

open ByteCodec Go
open List hiding le_antisymm

/-! ## Buffers -/

def maxReassemblyBytes : Nat := 16 * 1024 * 1024

def staleFragAge : Int := 5 * second

/-- Fragments are copied into a buffer kept under the writer's entity id and the sequence number. -/
structure FragKey where
  writer : EntityId
  seq : UInt64
  deriving DecidableEq

def DataFrag.key (f : DataFrag) : FragKey := ⟨f.writerEntityId, snToU64 f.writerSeqNum⟩

/-- A payload being put together. There is a flag for each fragment, and `received` counts those
set. -/
structure FragBuffer where
  data : Bytes
  seen : List Bool
  received : UInt32
  total : UInt32
  created : Int
  length_seen : seen.length = total.toNat
  received_eq : received.toNat = seen.count true

namespace FragBuffer

def new (dataSize total : UInt32) (now : Int) : FragBuffer :=
  { data := List.replicate dataSize.toNat 0, seen := List.replicate total.toNat false,
    received := 0, total := total, created := now, length_seen := length_replicate,
    received_eq := by simp [count_replicate] }

def isSeen (b : FragBuffer) (k : Nat) : Bool := b.seen.getD k false

theorem count_set_true {l : List Bool} {k : Nat} (hk : k < l.length) (h : l.getD k false = false) :
    (l.set k true).count true = l.count true + 1 := by
  rw [getD_eq_getElem _ _ hk] at h
  rw [count_set hk, h]
  simp

def store (b : FragBuffer) (k : Nat) (data : Bytes) (hk : k < b.total.toNat)
    (hnew : b.isSeen k = false) : FragBuffer :=
  { b with
    data := data
    seen := b.seen.set k true
    received := b.received + 1
    length_seen := by rw [length_set, b.length_seen]
    received_eq := by
      have hlen : k < b.seen.length := by rw [b.length_seen]; exact hk
      have hcount := count_set_true hlen hnew
      have hle : (b.seen.set k true).count true ≤ (b.seen.set k true).length :=
        count_le_length
      rw [length_set, b.length_seen] at hle
      have := b.total.toNat_lt
      rw [UInt32.toNat_add, b.received_eq, hcount]
      show (_ + 1) % 2 ^ 32 = _
      omega }

theorem isSeen_store (b : FragBuffer) {k : Nat} (data : Bytes) (hk : k < b.total.toNat)
    (hnew : b.isSeen k = false) (j : Nat) :
    (b.store k data hk hnew).isSeen j = (decide (j = k) || b.isSeen j) := by
  unfold isSeen store
  simp only [getD_eq_getElem?_getD, getElem?_set, b.length_seen, hk, if_true]
  by_cases hjk : k = j
  · simp [hjk]
  · simp [hjk, Ne.symm hjk]

theorem complete_iff (b : FragBuffer) : b.received ≥ b.total ↔ ∀ k < b.total.toNat, b.isSeen k := by
  rw [ge_iff_le, UInt32.le_iff_toNat_le, b.received_eq, ← b.length_seen]
  constructor
  · intro hle k hk
    have hall := count_eq_length.1 (le_antisymm count_le_length hle)
    rw [isSeen, getD_eq_getElem _ _ hk]
    exact (hall _ (getElem_mem hk)).symm
  · intro hall
    refine (count_eq_length.2 fun x hx => ?_).ge
    obtain ⟨k, hk, rfl⟩ := getElem_of_mem hx
    have := hall k hk
    rw [isSeen, getD_eq_getElem _ _ hk] at this
    exact this.symm

end FragBuffer

/-! ## Receiving a fragment -/

namespace DataFrag

def fragIndex (f : DataFrag) (i : Nat) : UInt32 := f.fragmentStartingNum - 1 + UInt32.ofNat i

def offset (f : DataFrag) (i : Nat) : UInt32 := f.fragIndex i * f.fragmentSize.toUInt32

def fragStart (f : DataFrag) (i : Nat) : UInt32 := UInt32.ofNat i * f.fragmentSize.toUInt32

def fragEnd (f : DataFrag) (i : Nat) : UInt32 :=
  let fragEnd := f.fragStart i + f.fragmentSize.toUInt32
  if fragEnd > UInt32.ofNat f.payload.length then UInt32.ofNat f.payload.length else fragEnd

def copyEnd (f : DataFrag) (i : Nat) : UInt32 :=
  let copyEnd := f.offset i + (f.fragEnd i - f.fragStart i)
  if copyEnd > f.dataSize then f.dataSize else copyEnd

def total (f : DataFrag) : UInt32 :=
  (f.dataSize + f.fragmentSize.toUInt32 - 1) / f.fragmentSize.toUInt32

def accepted (f : DataFrag) : Bool :=
  !(f.fragmentSize = 0 || f.dataSize = 0 || f.fragmentsInSubmsg = 0) &&
    !(f.fragmentStartingNum = 0) && !(f.dataSize.toNat > maxReassemblyBytes)

end DataFrag

inductive CopyStep where
  | stop
  | next (b : FragBuffer)
  | panic

def slicesOk (f : DataFrag) (b : FragBuffer) (i : Nat) : Bool :=
  f.offset i ≤ f.copyEnd i && (f.copyEnd i).toNat ≤ b.data.length &&
    (f.fragStart i ≤ f.fragEnd i && (f.fragEnd i).toNat ≤ f.payload.length)

def copied (f : DataFrag) (b : FragBuffer) (i : Nat) : Bytes :=
  overwrite b.data (f.offset i).toNat (f.copyEnd i).toNat
    (slice f.payload (f.fragStart i).toNat (f.fragEnd i).toNat)

def copyFragment (f : DataFrag) (b : FragBuffer) (i : Nat) : CopyStep :=
  if hout : f.fragIndex i ≥ b.total then .stop
  else if hseen : b.isSeen (f.fragIndex i).toNat = true then .next b
  else if f.offset i ≥ f.dataSize then .stop
  else if slicesOk f b i = false then .panic
  else
    .next (b.store (f.fragIndex i).toNat (copied f b i)
      (UInt32.lt_iff_toNat_lt.1 (UInt32.not_le.1 hout)) (by simpa using hseen))

def copyLoop (f : DataFrag) : (n i : Nat) → FragBuffer → FragBuffer × Bool
  | 0, _, b => (b, false)
  | n + 1, i, b =>
    match copyFragment f b i with
    | .stop => (b, false)
    | .panic => (b, true)
    | .next b' => copyLoop f n (i + 1) b'

inductive Reassembled where
  | nothing
  | payload (data : Bytes)
  | panicked
  deriving DecidableEq

abbrev FragmentAssembler := Table FragKey FragBuffer

namespace FragmentAssembler

def evict (fa : FragmentAssembler) (now : Int) : FragmentAssembler :=
  Table.filter fa fun b => !(now - b.created > staleFragAge)

/-- The size is the one the first fragment announces; later ones of the same key may have another
geometry. -/
def bufferFor (fa : FragmentAssembler) (f : DataFrag) (now : Int) : FragBuffer :=
  (fa.evict now f.key).getD (FragBuffer.new f.dataSize f.total now)

def receive (fa : FragmentAssembler) (f : DataFrag) (now : Int) : FragmentAssembler × Reassembled :=
  if f.accepted = false then (fa, .nothing)
  else
    let r := copyLoop f f.fragmentsInSubmsg.toNat 0 (fa.bufferFor f now)
    let fa := Table.set (fa.evict now) f.key r.1
    if r.2 then (fa, .panicked)
    else if r.1.received ≥ r.1.total then (Table.erase fa f.key, .payload r.1.data)
    else (fa, .nothing)

end FragmentAssembler

/-! ## When a call panics -/

namespace DataFrag

variable {f : DataFrag} {b : FragBuffer} {i j : Nat}

theorem accepted_iff : f.accepted ↔
    f.fragmentSize.toNat ≠ 0 ∧ f.dataSize.toNat ≠ 0 ∧ f.fragmentsInSubmsg.toNat ≠ 0 ∧
      f.fragmentStartingNum.toNat ≠ 0 ∧ f.dataSize.toNat ≤ maxReassemblyBytes := by
  have h16 : ∀ x : UInt16, x = 0 ↔ x.toNat = 0 := fun x => (UInt16.toNat_inj (b := 0)).symm
  have h32 : ∀ x : UInt32, x = 0 ↔ x.toNat = 0 := fun x => (UInt32.toNat_inj (b := 0)).symm
  simp only [accepted, h16, h32]
  simp [and_assoc]

variable (f)

theorem toNat_fragmentSize : f.fragmentSize.toUInt32.toNat = f.fragmentSize.toNat :=
  UInt16.toNat_toUInt32 _

theorem mul_size_lt (hi : i < 65536) : i * f.fragmentSize.toNat < 2 ^ 32 := by
  have hS := f.fragmentSize.toNat_lt
  calc i * f.fragmentSize.toNat ≤ 65535 * f.fragmentSize.toNat := Nat.mul_le_mul_right _ (by omega)
    _ < 2 ^ 32 := by omega

theorem toNat_fragStart (hi : i < 65536) :
    (f.fragStart i).toNat = i * f.fragmentSize.toNat := by
  rw [fragStart, UInt32.toNat_mul, toNat_fragmentSize, UInt32.toNat_ofNat_of_lt' (by
    show i < 2 ^ 32
    omega)]
  exact Nat.mod_eq_of_lt (f.mul_size_lt hi)

theorem toNat_fragEnd (hi : i < 65535) : (f.fragEnd i).toNat =
      min (i * f.fragmentSize.toNat + f.fragmentSize.toNat) (f.payload.length % 2 ^ 32) := by
  have hstart := f.toNat_fragStart (i := i) (by omega)
  have hlt := f.mul_size_lt (i := i + 1) (by omega)
  rw [Nat.succ_mul] at hlt
  have hsum : (f.fragStart i + f.fragmentSize.toUInt32).toNat =
      i * f.fragmentSize.toNat + f.fragmentSize.toNat := by
    rw [UInt32.toNat_add, hstart, toNat_fragmentSize]
    exact Nat.mod_eq_of_lt hlt
  have hlen : (UInt32.ofNat f.payload.length).toNat = f.payload.length % 2 ^ 32 :=
    UInt32.toNat_ofNat'
  simp only [fragEnd, gt_iff_lt, UInt32.lt_iff_toNat_lt, hsum, hlen]
  split_ifs with h
  · rw [hlen]
    omega
  · rw [hsum]
    omega

variable {f}

theorem toNat_copyEnd (hacc : f.accepted) (hi : i < 65535) (hoff : f.offset i < f.dataSize)
    (hstart : i * f.fragmentSize.toNat ≤ f.payload.length % 2 ^ 32) :
    (f.copyEnd i).toNat = min ((f.offset i).toNat +
      min f.fragmentSize.toNat (f.payload.length % 2 ^ 32 - i * f.fragmentSize.toNat))
      f.dataSize.toNat := by
  obtain ⟨-, -, -, -, hmax⟩ := accepted_iff.1 hacc
  have hS := f.fragmentSize.toNat_lt
  rw [maxReassemblyBytes] at hmax
  rw [UInt32.lt_iff_toNat_lt] at hoff
  have hdiff : (f.fragEnd i - f.fragStart i).toNat =
      min f.fragmentSize.toNat (f.payload.length % 2 ^ 32 - i * f.fragmentSize.toNat) := by
    rw [UInt32.toNat_sub_of_le, f.toNat_fragEnd hi, f.toNat_fragStart (by omega)]
    · omega
    · rw [UInt32.le_iff_toNat_le, f.toNat_fragEnd hi, f.toNat_fragStart (by omega)]
      omega
  have hsum : (f.offset i + (f.fragEnd i - f.fragStart i)).toNat = (f.offset i).toNat +
      min f.fragmentSize.toNat (f.payload.length % 2 ^ 32 - i * f.fragmentSize.toNat) := by
    rw [UInt32.toNat_add, hdiff]
    omega
  simp only [copyEnd, gt_iff_lt, UInt32.lt_iff_toNat_lt, hsum]
  split_ifs with h
  · omega
  · rw [hsum]
    omega

/-- The `i`-th fragment starts within the payload, whose length has 32 bits, and its bytes end
within the buffer. -/
def InBounds (f : DataFrag) (b : FragBuffer) (i : Nat) : Prop :=
  i * f.fragmentSize.toNat ≤ f.payload.length % 2 ^ 32 ∧
    min ((f.offset i).toNat +
      min f.fragmentSize.toNat (f.payload.length % 2 ^ 32 - i * f.fragmentSize.toNat))
      f.dataSize.toNat ≤ b.data.length

theorem slicesOk_iff (hacc : f.accepted) (hi : i < 65535)
    (hoff : f.offset i < f.dataSize) : slicesOk f b i ↔ f.InBounds b i := by
  have hend := f.toNat_fragEnd hi
  have hstart := f.toNat_fragStart (i := i) (by omega)
  unfold slicesOk InBounds
  simp only [Bool.and_eq_true, decide_eq_true_iff, UInt32.le_iff_toNat_le, hstart, hend]
  by_cases hin : i * f.fragmentSize.toNat ≤ f.payload.length % 2 ^ 32
  · rw [toNat_copyEnd hacc hi hoff hin]
    rw [UInt32.lt_iff_toNat_lt] at hoff
    have := Nat.mod_le f.payload.length (2 ^ 32)
    omega
  · omega

/-- The loop comes to turn `i` and copies a fragment there, into a place of the buffer that is not
filled. -/
def Copies (f : DataFrag) (b : FragBuffer) (i : Nat) : Prop :=
  (∀ j < i, f.fragIndex j < b.total ∧
    (b.isSeen (f.fragIndex j).toNat = true ∨ f.offset j < f.dataSize)) ∧
  f.fragIndex i < b.total ∧ b.isSeen (f.fragIndex i).toNat = false ∧ f.offset i < f.dataSize

theorem fragIndex_ne (f : DataFrag) (hi : i < 65536) (hj : j < 65536) (hij : i ≠ j) :
    (f.fragIndex i).toNat ≠ (f.fragIndex j).toNat := by
  intro heq
  simp only [fragIndex, UInt32.toNat_add, UInt32.toNat_ofNat'] at heq
  omega

end DataFrag

theorem length_copied {f : DataFrag} {b : FragBuffer} {i : Nat} (h : slicesOk f b i) :
    (copied f b i).length = b.data.length := by
  simp only [slicesOk, Bool.and_eq_true, decide_eq_true_iff, UInt32.le_iff_toNat_le] at h
  exact length_overwrite _ h.1.1 h.1.2

/-- The fragments from `i` on come to one that does not fit. -/
abbrev DataFrag.Overruns (f : DataFrag) (b : FragBuffer) (i n : Nat) : Prop :=
  ∃ j, i ≤ j ∧ j < i + n ∧ (∀ k, i ≤ k → k < j → f.fragIndex k < b.total ∧
      (b.isSeen (f.fragIndex k).toNat ∨ f.offset k < f.dataSize)) ∧
    f.fragIndex j < b.total ∧ b.isSeen (f.fragIndex j).toNat = false ∧
    f.offset j < f.dataSize ∧ slicesOk f b j = false

theorem copyLoop_panics_iff {f : DataFrag} {n i : Nat} {b : FragBuffer} (hn : i + n ≤ 65535) :
    (copyLoop f n i b).2 ↔ f.Overruns b i n := by
  induction n generalizing i b with
  | zero =>
    simp only [copyLoop, Bool.false_eq_true, false_iff]
    rintro ⟨j, hij, hj, -⟩
    omega
  | succ n ih =>
    -- what later turns find depends on the buffer only through what this turn leaves alone
    have hlater : ∀ b' : FragBuffer, b'.total = b.total → b'.data.length = b.data.length →
        (∀ j, i < j → j < 65536 →
          b'.isSeen (f.fragIndex j).toNat = b.isSeen (f.fragIndex j).toNat) →
        f.fragIndex i < b.total →
        (b.isSeen (f.fragIndex i).toNat ∨
          f.offset i < f.dataSize ∧ slicesOk f b i) →
        ((copyLoop f n (i + 1) b').2 ↔ f.Overruns b i (n + 1)) := by
      intro b' htotal hlen hseen hin hturn
      have hslices : ∀ j, slicesOk f b' j = slicesOk f b j := fun j => by
        unfold slicesOk
        rw [hlen]
      rw [ih (by omega), DataFrag.Overruns, htotal]
      constructor
      · rintro ⟨j, hij, hj, hbefore, hjn, hjs, hjo, hpanic⟩
        refine ⟨j, by omega, by omega, fun k hk hkj => ?_, hjn, ?_, hjo, by rwa [← hslices]⟩
        · rcases Nat.eq_or_lt_of_le hk with rfl | hk
          · exact ⟨hin, hturn.imp_right fun h => h.1⟩
          · rw [← hseen k hk (by omega)]
            exact hbefore k hk hkj
        · rwa [← hseen j (by omega) (by omega)]
      · rintro ⟨j, hij, hj, hbefore, hjn, hjs, hjo, hpanic⟩
        have hne : i ≠ j := by
          rintro rfl
          rcases hturn with h | ⟨-, h⟩
          · rw [h] at hjs
            cases hjs
          · rw [h] at hpanic
            cases hpanic
        refine ⟨j, by omega, by omega, fun k hk hkj => ?_, hjn, ?_, hjo, by rwa [hslices]⟩
        · rw [hseen k (by omega) (by omega)]
          exact hbefore k (by omega) hkj
        · rwa [hseen j (by omega) (by omega)]
    rw [copyLoop, copyFragment]
    split_ifs with hout hseen hpast hpanic
    · simp only [false_iff]
      rintro ⟨j, hij, -, hbefore, hjn, -⟩
      rcases Nat.eq_or_lt_of_le hij with rfl | hij
      · exact absurd hjn (UInt32.not_lt.2 hout)
      · exact absurd (hbefore i le_rfl hij).1 (UInt32.not_lt.2 hout)
    · exact hlater b rfl rfl (fun _ _ _ => rfl) (UInt32.not_le.1 hout) (.inl hseen)
    · simp only [false_iff]
      rintro ⟨j, hij, -, hbefore, -, -, hjo, -⟩
      rcases Nat.eq_or_lt_of_le hij with rfl | hij
      · exact absurd hjo (UInt32.not_lt.2 hpast)
      · rcases (hbefore i le_rfl hij).2 with h | h
        · exact hseen h
        · exact absurd h (UInt32.not_lt.2 hpast)
    · simp only [true_iff]
      exact ⟨i, le_rfl, by omega, fun k hk hki => by omega, UInt32.not_le.1 hout,
        by simpa using hseen, UInt32.not_le.1 hpast, hpanic⟩
    · have hok : slicesOk f b i = true := by simpa using hpanic
      refine hlater _ rfl (length_copied hok) (fun j hij hj => ?_) (UInt32.not_le.1 hout)
        (.inr ⟨UInt32.not_le.1 hpast, hok⟩)
      rw [FragBuffer.isSeen_store]
      simp [f.fragIndex_ne (i := j) (j := i) hj (by omega) (by omega)]

namespace FragmentAssembler

/-- A call panics if and only if it comes to copy a fragment that starts past the end of the payload
or ends past the end of the buffer. -/
theorem receive_panics_iff (fa : FragmentAssembler) (f : DataFrag) (now : Int) :
    (fa.receive f now).2 = .panicked ↔ f.accepted ∧
      ∃ i < f.fragmentsInSubmsg.toNat, f.Copies (fa.bufferFor f now) i ∧
        ¬ f.InBounds (fa.bufferFor f now) i := by
  have hN := f.fragmentsInSubmsg.toNat_lt
  unfold receive
  by_cases hacc : f.accepted
  · rw [if_neg (by simp [hacc])]
    have hpanics := copyLoop_panics_iff (f := f) (n := f.fragmentsInSubmsg.toNat) (i := 0)
      (b := fa.bufferFor f now) (by omega)
    simp only [hacc, true_and]
    constructor
    · intro h
      split_ifs at h with hpanic hdone
      · obtain ⟨j, -, hj, hbefore, hin, hseen, hoff, hbad⟩ := hpanics.1 hpanic
        rw [Nat.zero_add] at hj
        refine ⟨j, hj, ⟨fun k hk => hbefore k (Nat.zero_le k) hk, hin, hseen, hoff⟩, fun hok => ?_⟩
        rw [(DataFrag.slicesOk_iff hacc (by omega) hoff).2 hok] at hbad
        cases hbad
    · rintro ⟨j, hj, ⟨hbefore, hin, hseen, hoff⟩, hbad⟩
      rw [if_pos (hpanics.2 ⟨j, Nat.zero_le j, by omega, fun k _ hk => hbefore k hk, hin, hseen,
        hoff, ?_⟩)]
      rw [← Bool.not_eq_true, DataFrag.slicesOk_iff hacc (by omega) hoff]
      exact hbad
  · rw [if_pos (by simpa using hacc)]
    simp [hacc]

structure Arrival where
  body : Bytes
  now : Int

def feed (fa : FragmentAssembler) (a : Arrival) : FragmentAssembler × List Reassembled :=
  match parseDataFrag a.body with
  | none => (fa, [])
  | some f => ((fa.receive f a.now).1, [(fa.receive f a.now).2])

/-- Nothing that arrives makes the assembler panic exactly if every fragment that is copied stays
within the buffer kept for it. -/
theorem never_panics_iff (arrivals : List Arrival) :
    Reassembled.panicked ∉ (Run.run feed Table.empty arrivals).2 ↔
      Run.Along (fun _ fa a => ∀ f, parseDataFrag a.body = some f → f.accepted = true →
        ∀ i < f.fragmentsInSubmsg.toNat, f.Copies (bufferFor fa f a.now) i →
          f.InBounds (bufferFor fa f a.now) i) feed [] Table.empty arrivals := by
  have hout : Reassembled.panicked ∉ (Run.run feed Table.empty arrivals).2 ↔
      ∀ o ∈ (Run.run feed Table.empty arrivals).2, o ≠ .panicked :=
    ⟨fun h o ho heq => h (heq ▸ ho), fun h hmem => h _ hmem rfl⟩
  rw [hout, Run.forall_outputs_iff []]
  refine Run.along_congr (fun _ fa a => ?_) _ _ _
  unfold feed
  cases parseDataFrag a.body with
  | none => simp
  | some f =>
    simp only [mem_singleton, forall_eq, Option.some.injEq, forall_eq', Ne,
      receive_panics_iff, not_and, not_exists, not_not]

/-- One body of 32 bytes: two one-byte fragments of two bytes of data are announced, and there is no
payload. -/
theorem receive_short_payload :
    let body := dataFragBody ⟨entityIdForWriter 1, entityIdUnknown, u64ToSN 1, 1, 2, 1, 2, []⟩
    body.length = 32 ∧ (Run.run feed Table.empty [⟨body, 0⟩]).2 = [.panicked] := by decide +kernel

end FragmentAssembler

end GoDDS
